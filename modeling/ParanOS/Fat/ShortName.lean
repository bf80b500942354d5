import ParanOS.Fat.File

/-! # Short names there and back

A component goes through two cuts, to twelve characters by `next_path_component` and to
eight and three by `make_name83`. A listed name is put together from the two fields of an
entry and goes through both cuts again when it is used in a path.
-/

namespace ParanOS

open Foundation

/-! ## Padding and capitals -/

theorem map_toUpper_capitals {chars : List UInt8}
    (capitals : ∀ char ∈ chars, toUpper char = char) : chars.map toUpper = chars := by
  calc
    chars.map toUpper = chars.map id := List.map_congr_left capitals
    _ = chars := List.map_id chars

theorem toUpper_eq_dot {char : UInt8} : toUpper char = 0x2E ↔ char = 0x2E :=
  toUpper_eq_iff_of_not_letter (by decide) (by decide)

theorem toUpper_eq_slash {char : UInt8} : toUpper char = 0x2F ↔ char = 0x2F :=
  toUpper_eq_iff_of_not_letter (by decide) (by decide)

theorem toUpper_eq_zero {char : UInt8} : toUpper char = 0 ↔ char = 0 :=
  toUpper_eq_iff_of_not_letter (by decide) (by decide)

theorem padTo_of_full {width : Nat} {chars : List UInt8} (full : width ≤ chars.length) :
    padTo width chars = chars := by
  rw [padTo, Nat.sub_eq_zero_of_le full, List.replicate_zero, List.append_nil]

theorem mem_padTo {width : Nat} {chars : List UInt8} {char : UInt8}
    (member : char ∈ padTo width chars) : char ∈ chars ∨ char = 0x20 := by
  rw [padTo, List.mem_append] at member
  exact member.imp_right List.eq_of_mem_replicate

/-! ## One component -/

/-- A component is read up to the slash behind it. -/
theorem component_of {limit : Nat} {comp rest : List UInt8} (nonempty : comp ≠ [])
    (slashFree : ∀ char ∈ comp, char ≠ 0x2F) (ends : rest = [] ∨ rest.head? = some 0x2F) :
    component limit (comp ++ rest) = some (comp.take limit, rest) := by
  have passed : comp.takeWhile (· ≠ 0x2F) = comp := by
    rw [List.takeWhile_eq_self_iff]
    simpa using slashFree
  have stops : rest.takeWhile (· ≠ 0x2F) = [] ∧ rest.dropWhile (· ≠ 0x2F) = rest := by
    cases rest with
    | nil => exact ⟨rfl, rfl⟩
    | cons char rest =>
        have slash : char = 0x2F := by simpa using ends
        simp [slash]
  cases comp with
  | nil => exact absurd rfl nonempty
  | cons char comp =>
      have other : char ≠ 0x2F := slashFree char (by simp)
      have start : ((char :: comp) ++ rest).dropWhile (· = 0x2F) = (char :: comp) ++ rest := by
        simp [other]
      rw [component, start]
      simp only [List.cons_append]
      rw [← List.cons_append, List.takeWhile_append, List.dropWhile_append, passed, stops.1,
        stops.2]
      have whole : (char :: comp).dropWhile (· ≠ 0x2F) = [] := by
        rw [List.dropWhile_eq_nil_iff]
        simpa using slashFree
      rw [if_pos rfl, whole]
      simp

/-! ## Encoding -/

theorem not_dot_of_mem_padTo {width : Nat} {chars : List UInt8}
    (dotFree : ∀ char ∈ chars, char ≠ 0x2E) : 0x2E ∉ padTo width (chars.map toUpper) := by
  intro member
  rcases mem_padTo member with inside | space
  · rcases List.mem_map.mp inside with ⟨char, charIn, equal⟩
    exact dotFree char charIn (toUpper_eq_dot.mp equal)
  · exact absurd space (by decide)

/-- A component with a short base is split at its dot. -/
theorem makeName83_short {base ext : List UInt8} (dotFree : ∀ char ∈ base, char ≠ 0x2E)
    (short : base.length ≤ 8) :
    makeName83 (base ++ 0x2E :: ext) =
      padTo 8 (base.map toUpper) ++ padTo 3 ((ext.take 3).map toUpper) := by
  have upTo : (base ++ 0x2E :: ext).takeWhile (· ≠ 0x2E) = base := by
    rw [List.takeWhile_append, if_pos]
    · simp
    · rw [List.takeWhile_eq_self_iff.mpr (by simpa using dotFree)]
  simp only [makeName83]
  rw [upTo, List.take_of_length_le short, List.drop_left, List.head?_cons, if_pos rfl,
    List.tail_cons]

/-- Behind a long base the cut to eight characters leaves no dot. -/
theorem makeName83_long {comp : List UInt8} (dotFree : ∀ char ∈ comp.take 9, char ≠ 0x2E)
    (long : 8 < comp.length) :
    makeName83 comp =
      padTo 8 ((comp.take 8).map toUpper) ++ padTo 3 (((comp.drop 8).take 3).map toUpper) := by
  have upTo : (comp.takeWhile (· ≠ 0x2E)).take 8 = comp.take 8 := by
    have first : comp = comp.take 9 ++ comp.drop 9 := (List.take_append_drop 9 comp).symm
    rw [first, List.takeWhile_append, if_pos]
    · rw [List.take_append_of_le_length (by simp; omega),
        List.take_append_of_le_length (by simp; omega)]
    · rw [List.takeWhile_eq_self_iff.mpr (by simpa using dotFree)]
  have eight : (comp.take 8).length = 8 := by simp; omega
  have noDot : (comp.drop 8).head? ≠ some 0x2E := by
    intro dot
    rw [List.head?_drop] at dot
    apply dotFree 0x2E _ rfl
    apply @List.mem_of_getElem? _ _ 8 _
    rw [List.getElem?_take_of_lt (by omega)]
    exact dot
  simp only [makeName83]
  rw [upTo, eight, if_neg noDot]

/-- The extension of a component with a base is kept exactly if the base has at most eight
characters, or happens to have the extension in the three characters behind the eighth. -/
theorem makeName83_extension_iff {base ext rest : List UInt8}
    (baseChars : ∀ char ∈ base, char ≠ 0x2E ∧ char ≠ 0x2F)
    (extChars : ∀ char ∈ ext, char ≠ 0x2E ∧ char ≠ 0x2F) (few : ext.length ≤ 3)
    (ends : rest = [] ∨ rest.head? = some 0x2F) :
    ∃ comp, nextPathComponent (base ++ 0x2E :: ext ++ rest) = some (comp, rest) ∧
      ((makeName83 comp).take 8 = padTo 8 ((base.take 8).map toUpper) ∧
        (makeName83 comp).drop 8 = padTo 3 (ext.map toUpper) ↔
        base.length ≤ 8 ∨ 11 ≤ base.length ∧
          ((base.drop 8).take 3).map toUpper = padTo 3 (ext.map toUpper)) := by
  have split : nextPathComponent (base ++ 0x2E :: ext ++ rest) =
      some ((base ++ 0x2E :: ext).take 12, rest) := by
    apply component_of (by simp) _ ends
    intro char member
    rcases List.mem_append.mp member with inBase | inExt
    · exact (baseChars char inBase).2
    · cases List.mem_cons.mp inExt with
      | inl dot => exact dot ▸ by decide
      | inr inExt => exact (extChars char inExt).2
  refine ⟨_, split, ?_⟩
  have fields : ∀ {first last : List UInt8}, first.length ≤ 8 →
      (padTo 8 first ++ padTo 3 last).take 8 = padTo 8 first ∧
        (padTo 8 first ++ padTo 3 last).drop 8 = padTo 3 last := by
    intro first last fits
    have eight := padTo_length fits
    exact ⟨List.take_left' eight, List.drop_left' eight⟩
  have eight : ((base.take 8).map toUpper).length ≤ 8 := by
    rw [List.length_map, List.length_take]
    omega
  by_cases short : base.length ≤ 8
  · have whole : (base ++ 0x2E :: ext).take 12 = base ++ 0x2E :: ext :=
      List.take_of_length_le (by simp; omega)
    rw [whole, makeName83_short (fun char member => (baseChars char member).1) short,
      List.take_of_length_le few, List.take_of_length_le short]
    exact iff_of_true (fields (by simpa using short)) (.inl short)
  · have front : ((base ++ 0x2E :: ext).take 12).take 9 = base.take 9 := by
      rw [List.take_take, Nat.min_eq_left (by omega), List.take_append_of_le_length (by omega)]
    have middle : (((base ++ 0x2E :: ext).take 12).drop 8).take 3 =
        (base.drop 8 ++ 0x2E :: ext).take 3 := by
      rw [List.drop_take, List.take_take, Nat.min_eq_left (by omega),
        List.drop_append_of_le_length (by omega)]
    have dotFree : ∀ char ∈ ((base ++ 0x2E :: ext).take 12).take 9, char ≠ 0x2E := by
      intro char member
      rw [front] at member
      exact (baseChars char (List.mem_of_mem_take member)).1
    have start : ((base ++ 0x2E :: ext).take 12).take 8 = base.take 8 := by
      rw [List.take_take, Nat.min_eq_left (by omega), List.take_append_of_le_length (by omega)]
    rw [makeName83_long dotFree (by simp; omega), start, middle, (fields eight).1,
      (fields eight).2, and_iff_right rfl, or_iff_right short]
    have extField := @not_dot_of_mem_padTo 3 ext fun char member => (extChars char member).1
    by_cases longer : 11 ≤ base.length
    · rw [List.take_append_of_le_length (by simp; omega), and_iff_right longer,
        padTo_of_full (by simp; omega)]
    · -- the dot is among the three characters behind the eighth
      have dot : 0x2E ∈ (base.drop 8 ++ 0x2E :: ext).take 3 := by
        apply @List.mem_of_getElem? _ _ (base.length - 8) _
        rw [List.getElem?_take_of_lt (by omega), List.getElem?_append_right (by simp)]
        simp
      apply iff_of_false
      · intro equal
        apply extField
        rw [← equal]
        exact List.mem_append_left _ (List.mem_map.mpr ⟨0x2E, dot, rfl⟩)
      · exact fun both => longer both.1

/-- `README.TXT` in front of another component. -/
theorem makeName83_extension_iff_readme :
    ∃ comp, nextPathComponent ([0x52, 0x45, 0x41, 0x44, 0x4D, 0x45] ++ 0x2E ::
        [0x54, 0x58, 0x54] ++ [0x2F, 0x41]) = some (comp, [0x2F, 0x41]) ∧
      (makeName83 comp).drop 8 = [0x54, 0x58, 0x54] := by
  have kept := @makeName83_extension_iff [0x52, 0x45, 0x41, 0x44, 0x4D, 0x45] [0x54, 0x58, 0x54]
    [0x2F, 0x41] (by simp) (by simp) (by decide) (by decide)
  cases kept with
  | intro comp found => exact ⟨comp, found.1, (found.2.mpr (by decide)).2⟩

/-- `NOTEBOOK1.TXT` gets the extension `1.T`. -/
theorem makeName83_loses_extension :
    ¬ ∀ base ext : List UInt8, base ≠ [] → (∀ char ∈ base, char ≠ 0x2E ∧ char ≠ 0x2F) →
      ext ≠ [] → ext.length ≤ 3 → (∀ char ∈ ext, char ≠ 0x2E ∧ char ≠ 0x2F) →
      base.length + 1 + ext.length ≤ 31 → ∀ comp rest,
      nextPathComponent (base ++ 0x2E :: ext) = some (comp, rest) →
      (makeName83 comp).take 8 = padTo 8 ((base.take 8).map toUpper) ∧
        (makeName83 comp).drop 8 = padTo 3 (ext.map toUpper) := by
  intro claim
  have kept := claim [0x4E, 0x4F, 0x54, 0x45, 0x42, 0x4F, 0x4F, 0x4B, 0x31] [0x54, 0x58, 0x54]
    (by decide) (by decide +kernel) (by decide) (by decide) (by decide +kernel) (by decide) _ [] rfl
  exact absurd kept.2 (by decide)

/-! ## Rendering -/

/-- Cutting the padding off a field and padding it again gives the field. -/
theorem padTo_rdropWhile {width : Nat} {field : List UInt8} (full : field.length = width) :
    padTo width (field.rdropWhile (· = 0x20)) = field := by
  have split := @List.rdropWhile_append_rtakeWhile _ (fun char : UInt8 => decide (char = 0x20))
    field
  have spaces : field.rtakeWhile (· = 0x20) =
      List.replicate (field.rtakeWhile (· = 0x20)).length 0x20 := by
    rw [List.eq_replicate_iff]
    exact ⟨rfl, fun char member => by simpa using List.mem_rtakeWhile_imp member⟩
  have total := congrArg List.length split
  rw [List.length_append, full] at total
  calc
    padTo width (field.rdropWhile (· = 0x20)) =
        field.rdropWhile (· = 0x20) ++ field.rtakeWhile (· = 0x20) := by
      rw [padTo, spaces]
      congr 2
      omega
    _ = field := split

theorem trimName_eq {field : List UInt8} (nulFree : ∀ char ∈ field, char ≠ 0) :
    trimName field = field.rdropWhile (· = 0x20) := by
  rw [trimName, List.takeWhile_eq_self_iff]
  intro char member
  simpa using nulFree char ((List.rdropWhile_prefix _ field).subset member)

/-- A component without a dot has no extension. -/
theorem makeName83_bare {base : List UInt8} (dotFree : ∀ char ∈ base, char ≠ 0x2E)
    (short : base.length ≤ 8) :
    makeName83 base = padTo 8 (base.map toUpper) ++ padTo 3 [] := by
  have upTo : base.takeWhile (· ≠ 0x2E) = base :=
    List.takeWhile_eq_self_iff.mpr (by simpa using dotFree)
  simp only [makeName83]
  rw [upTo, List.take_of_length_le short, List.drop_length]
  simp

/-- The two fields of a short name. -/
theorem makeName83_fields (name : List UInt8) :
    ∃ base ext : List UInt8,
      makeName83 name = padTo 8 (base.map toUpper) ++ padTo 3 (ext.map toUpper) ∧
      base.length ≤ 8 ∧ ext.length ≤ 3 ∧ (∀ char ∈ base, char ∈ name ∧ char ≠ 0x2E) ∧
      ∀ char ∈ ext, char ∈ name := by
  refine ⟨_, _, rfl, List.length_take_le _ _, List.length_take_le _ _, ?_, ?_⟩
  · intro char member
    have upTo := List.mem_of_mem_take member
    refine ⟨(List.takeWhile_sublist _).subset upTo, ?_⟩
    simpa using List.mem_takeWhile_imp upTo
  · intro char member
    have behind := List.mem_of_mem_take member
    split at behind
    · exact List.mem_of_mem_drop (List.mem_of_mem_tail behind)
    · exact List.mem_of_mem_drop behind

/-- Field characters are capitals, and those of the component. -/
theorem mem_field {width : Nat} {chars : List UInt8} {char : UInt8}
    (member : char ∈ padTo width (chars.map toUpper)) :
    toUpper char = char ∧ (char = 0x20 ∨ ∃ other ∈ chars, toUpper other = char) := by
  cases mem_padTo member with
  | inl inside =>
      rcases List.mem_map.mp inside with ⟨other, otherIn, rfl⟩
      exact ⟨toUpper_toUpper other, .inr ⟨other, otherIn, rfl⟩⟩
  | inr space => exact ⟨by rw [space]; decide, .inl space⟩

/-- The text that is put together from two fields, as a component of a path. -/
theorem makeName83_rendered {first last : List UInt8} (eight : first.length = 8)
    (three : last.length = 3)
    (firstChars : ∀ char ∈ first, toUpper char = char ∧ char ≠ 0x2E ∧ char ≠ 0x2F)
    (lastChars : ∀ char ∈ last, toUpper char = char ∧ char ≠ 0x2F)
    (visible : first ++ last ≠ List.replicate 11 0x20) :
    ∃ comp, nextPathComponent (if last.rdropWhile (· = 0x20) = [] then
        first.rdropWhile (· = 0x20)
      else first.rdropWhile (· = 0x20) ++ 0x2E :: last.rdropWhile (· = 0x20)) =
        some (comp, []) ∧ makeName83 comp = first ++ last := by
  have firstPadded := padTo_rdropWhile eight
  have lastPadded := padTo_rdropWhile three
  have firstSub := (List.rdropWhile_prefix (fun char : UInt8 => decide (char = 0x20)) first).subset
  have lastSub := (List.rdropWhile_prefix (fun char : UInt8 => decide (char = 0x20)) last).subset
  have firstLength :=
    (List.rdropWhile_prefix (fun char : UInt8 => decide (char = 0x20)) first).length_le
  have lastLength :=
    (List.rdropWhile_prefix (fun char : UInt8 => decide (char = 0x20)) last).length_le
  generalize first.rdropWhile (· = 0x20) = base at *
  generalize last.rdropWhile (· = 0x20) = ext at *
  have baseCapitals : base.map toUpper = base :=
    map_toUpper_capitals fun char member => (firstChars char (firstSub member)).1
  have extCapitals : ext.map toUpper = ext :=
    map_toUpper_capitals fun char member => (lastChars char (lastSub member)).1
  have dotFree : ∀ char ∈ base, char ≠ 0x2E :=
    fun char member => (firstChars char (firstSub member)).2.1
  have baseSlashes : ∀ char ∈ base, char ≠ 0x2F :=
    fun char member => (firstChars char (firstSub member)).2.2
  by_cases bare : ext = []
  · rw [if_pos bare]
    rw [bare] at lastPadded
    have nonempty : base ≠ [] := by
      intro empty
      apply visible
      rw [← firstPadded, ← lastPadded, empty]
      rfl
    have split := @component_of 12 base [] nonempty baseSlashes (.inl rfl)
    rw [List.append_nil] at split
    refine ⟨_, split, ?_⟩
    rw [List.take_of_length_le (by omega), makeName83_bare dotFree (by omega), baseCapitals,
      firstPadded, lastPadded]
  · rw [if_neg bare]
    have slashes : ∀ char ∈ base ++ 0x2E :: ext, char ≠ 0x2F := by
      intro char member
      rcases List.mem_append.mp member with inBase | inExt
      · exact baseSlashes char inBase
      · cases List.mem_cons.mp inExt with
        | inl dot => exact dot ▸ by decide
        | inr inExt => exact (lastChars char (lastSub inExt)).2
    have split := @component_of 12 (base ++ 0x2E :: ext) [] (by simp) slashes (.inl rfl)
    rw [List.append_nil] at split
    refine ⟨_, split, ?_⟩
    have whole : (base ++ 0x2E :: ext).take 12 = base ++ 0x2E :: ext :=
      List.take_of_length_le (by simp; omega)
    rw [whole, makeName83_short dotFree (by omega), List.take_of_length_le (by omega),
      baseCapitals, extCapitals, firstPadded, lastPadded]

/-- A listed name leads back to the eleven bytes that it was put together from, unless these
are all spaces. -/
theorem makeName83_renderName {name : List UInt8}
    (chars : ∀ char ∈ name, char ≠ 0x2F ∧ char ≠ 0)
    (visible : makeName83 name ≠ List.replicate 11 0x20) {sec : Buffer} {off : Nat}
    (stored : sec.bytes off 11 = makeName83 name) :
    ∃ comp, nextPathComponent (renderName sec off) = some (comp, []) ∧
      makeName83 comp = makeName83 name := by
  rcases makeName83_fields name with ⟨base, ext, fields, short, few, baseChars, extChars⟩
  have eight : (padTo 8 (base.map toUpper)).length = 8 := padTo_length (by simpa using short)
  have three : (padTo 3 (ext.map toUpper)).length = 3 := padTo_length (by simpa using few)
  have parts : sec.bytes off 8 = padTo 8 (base.map toUpper) ∧
      sec.bytes (off + 8) 3 = padTo 3 (ext.map toUpper) := by
    rw [fields, show (11 : Nat) = 8 + 3 by rfl, Buffer.bytes_add] at stored
    exact List.append_inj stored (by rw [Buffer.bytes_length, eight])
  have inField : ∀ {width : Nat} {part : List UInt8}, (∀ char ∈ part, char ∈ name) →
      ∀ char ∈ padTo width (part.map toUpper), toUpper char = char ∧ char ≠ 0x2F ∧ char ≠ 0 := by
    intro width part within char member
    rcases mem_field member with ⟨capital, rfl | ⟨other, otherIn, rfl⟩⟩
    · exact ⟨capital, by decide, by decide⟩
    · have original := chars other (within other otherIn)
      exact ⟨capital, fun slash => original.1 (toUpper_eq_slash.mp slash),
        fun zero => original.2 (toUpper_eq_zero.mp zero)⟩
  have inBase := @inField 8 base fun char member => (baseChars char member).1
  have inExt := @inField 3 ext extChars
  rw [renderName, parts.1, parts.2, trimName_eq fun char member => (inBase char member).2.2,
    trimName_eq fun char member => (inExt char member).2.2, fields]
  apply makeName83_rendered eight three
  · intro char member
    have facts := inBase char member
    refine ⟨facts.1, ?_, facts.2.1⟩
    intro dot
    exact not_dot_of_mem_padTo (fun char member => (baseChars char member).2) (dot ▸ member)
  · exact fun char member => ⟨(inExt char member).1, (inExt char member).2.1⟩
  · rw [← fields]
    exact visible

/-- The component `a. b` is listed as `A. B`. -/
theorem makeName83_renderName_space :
    ∃ comp, nextPathComponent (renderName (Buffer.ofList (makeName83 [0x61, 0x2E, 0x20, 0x62])) 0) =
        some (comp, []) ∧ makeName83 comp = makeName83 [0x61, 0x2E, 0x20, 0x62] :=
  makeName83_renderName (by decide +kernel) (by decide) (by decide)

end ParanOS

import ParanOS.Fat.WellFormed
import ParanOS.Kernel.Apps

/-! # The desktops of the accounts

The name of an account becomes a part of the path to its desktop: cut to 15
characters, in upper case, split at slashes, and each piece put into the 8.3 form of
the FAT driver. Two accounts have their desktops apart exactly when these 8.3 names
are not the same.
-/

namespace ParanOS

open Foundation

/-- The users that `ensure_user_store` takes from what `USERS.TXT` holds. -/
def accounts (content : List UInt8) : List User :=
  let body := content.takeWhile (· ≠ 0)
  let users := userParseLines body.length [] body
  if users = [] then defaultUsers else users

/-- The 8.3 names of the pieces of an account's name. -/
def accountNames (name : List UInt8) : List (List UInt8) :=
  (components 12 (upperCopy 16 name)).map makeName83

/-! ## The path to a desktop -/

theorem toUpper_ne_zero {char : UInt8} (nonzero : char ≠ 0) : toUpper char ≠ 0 := by
  revert nonzero
  rcases char with ⟨bits⟩
  revert bits
  decide

theorem ofArray_chars {path : List UInt8} (nulFree : ∀ char ∈ path, char ≠ 0) :
    (CString.ofArray path).chars = path := by
  rw [CString.ofArray, List.takeWhile_eq_self_iff]
  intro char member
  simpa using nulFree char member

/-- The way to a desktop is fixed but for the names of the account. -/
theorem components83_desktop {name : List UInt8} (nulFree : ∀ char ∈ name, char ≠ 0) :
    ((CString.ofArray (userDir name ++ ascii "/DESKTOP")).components83).map makeName83 =
      [makeName83 (ascii "PARANOS"), makeName83 (ascii "USERS")] ++ accountNames name ++
        [makeName83 (ascii "DESKTOP")] := by
  have path : userDir name ++ ascii "/DESKTOP" =
      ascii "PARANOS" ++ 0x2F :: (ascii "USERS" ++ 0x2F :: (upperCopy 16 name ++
        0x2F :: ascii "DESKTOP")) := by
    simp only [userDir, List.append_assoc]
    rfl
  have upperFree : ∀ char ∈ upperCopy 16 name, char ≠ 0 := by
    intro char member
    rcases List.mem_map.mp member with ⟨source, inside, rfl⟩
    exact toUpper_ne_zero (nulFree source (List.mem_of_mem_take inside))
  have pathFree : ∀ char ∈ userDir name ++ ascii "/DESKTOP", char ≠ 0 := by
    have base : (0 : UInt8) ∉ pathBaseDir ++ ascii "/USERS/" := by decide
    have last : (0 : UInt8) ∉ ascii "/DESKTOP" := by decide
    intro char member
    rcases List.mem_append.mp member with inUser | inLast
    · rcases List.mem_append.mp inUser with inBase | inName
      · exact fun zero => base (zero ▸ inBase)
      · exact upperFree char inName
    · exact fun zero => last (zero ▸ inLast)
  have noDrive : skipDrivePrefix (userDir name ++ ascii "/DESKTOP") =
      userDir name ++ ascii "/DESKTOP" := by
    rw [path]
    rfl
  rw [CString.components83, ofArray_chars pathFree, noDrive, path, components_append,
    components_append, components_append, accountNames]
  simp only [List.map_append, List.append_assoc]
  rfl

/-! ## The names in the list of users -/

/-- Every character of a name in the list is one of these. -/
def NamesWithin (chars : List UInt8) (users : List User) : Prop :=
  ∀ user ∈ users, ∀ char ∈ user.name, char ∈ chars

theorem userParseLine_names {chars line : List UInt8} {users : List User}
    (names : NamesWithin chars users) (inside : ∀ char ∈ line, char ∈ chars) :
    NamesWithin chars (userParseLine users line) := by
  unfold userParseLine
  split
  · simp only
    split
    · exact names
    · unfold userAdd
      split
      · exact names
      · intro user member char inName
        rcases List.mem_append.mp member with old | new
        · exact names user old char inName
        · rw [List.mem_singleton.mp new] at inName
          have source := List.mem_of_mem_take inName
          have kept := (List.rdropWhile_prefix _ _).subset source
          exact inside char ((List.takeWhile_prefix _).subset kept)
  · exact names

theorem userParseLines_names {chars : List UInt8} (fuel : Nat) {users : List User}
    {text : List UInt8} (names : NamesWithin chars users) (inside : ∀ char ∈ text, char ∈ chars) :
    NamesWithin chars (userParseLines fuel users text) := by
  induction fuel generalizing users text with
  | zero => exact names
  | succ fuel induction =>
      simp only [userParseLines]
      split
      · exact names
      · apply induction
        · apply userParseLine_names names
          intro char member
          exact inside char ((List.takeWhile_prefix _).subset (List.mem_of_mem_take member))
        · intro char member
          split at member
          · exact inside char (List.mem_of_mem_drop (List.mem_of_mem_drop member))
          · exact inside char (List.mem_of_mem_drop member)

theorem accounts_nulFree (content : List UInt8) :
    ∀ user ∈ accounts content, ∀ char ∈ user.name, char ≠ 0 := by
  simp only [accounts]
  split
  · intro user member char inName zero
    rw [zero] at inName
    revert user
    decide
  · have names : NamesWithin (content.takeWhile (· ≠ 0)) (userParseLines
        (content.takeWhile (· ≠ 0)).length [] (content.takeWhile (· ≠ 0))) :=
      userParseLines_names _ (fun user none => absurd none List.not_mem_nil)
        (fun char member => member)
    intro user member char inName
    simpa using List.mem_takeWhile_imp (names user member char inName)

/-! ## Plain names -/

/-- A name of at most 11 characters without slash, dot and space. -/
def PlainName (name : List UInt8) : Prop :=
  name.length ≤ 11 ∧ ∀ char ∈ name, char ≠ 0x2F ∧ char ≠ 0x2E ∧ char ≠ 0x20

instance (name : List UInt8) : Decidable (PlainName name) :=
  @instDecidableAnd _ _ _ (List.decidableBAll _ name)

theorem PlainName.upper {name : List UInt8} (plain : PlainName name) :
    PlainName (name.map toUpper) := by
  refine ⟨by rw [List.length_map]; exact plain.1, ?_⟩
  intro char member
  rcases List.mem_map.mp member with ⟨source, inside, rfl⟩
  have apart := plain.2 source inside
  rw [Ne, Ne, Ne, toUpper_eq_iff_of_not_letter (by decide) (by decide),
    toUpper_eq_iff_of_not_letter (by decide) (by decide),
    toUpper_eq_iff_of_not_letter (by decide) (by decide)]
  exact apart

/-- A plain name is one component. -/
theorem PlainName.components {name : List UInt8} (plain : PlainName name) (long : name ≠ []) :
    components 12 name = [name] := by
  have short : name.take 12 = name :=
    List.take_of_length_le (by have length := plain.1; omega)
  rw [components_single long fun char member => (plain.2 char member).1, short]

theorem filter_padTo {chars : List UInt8} (width : Nat) (noSpace : ∀ char ∈ chars, char ≠ 0x20) :
    (padTo width chars).filter (· ≠ 0x20) = chars := by
  rw [padTo, List.filter_append, List.filter_eq_self.mpr (by simpa using noSpace)]
  simp

/-- The 8.3 form of a plain name spells its characters in upper case. -/
theorem PlainName.spelled {name : List UInt8} (plain : PlainName name) :
    (makeName83 name).filter (· ≠ 0x20) = name.map toUpper := by
  have noDot : ∀ char ∈ name, decide (char ≠ 0x2E) = true := by
    intro char member
    simpa using (plain.2 char member).2.1
  have base : name.takeWhile (· ≠ 0x2E) = name := List.takeWhile_eq_self_iff.mpr noDot
  have noSpace : ∀ part : List UInt8, (∀ char ∈ part, char ∈ name) →
      ∀ char ∈ part.map toUpper, char ≠ 0x20 := by
    intro part inside char member
    rcases List.mem_map.mp member with ⟨source, fromPart, rfl⟩
    exact (plain.upper.2 _ (List.mem_map.mpr ⟨source, inside source fromPart, rfl⟩)).2.2
  have rest : name.drop (name.take 8).length = name.drop 8 := by
    rw [List.length_take]
    by_cases long : 8 ≤ name.length
    · rw [Nat.min_eq_left long]
    · rw [Nat.min_eq_right (by omega), List.drop_length, List.drop_of_length_le (by omega)]
  have noDotNext : ¬ (name.drop 8).head? = some 0x2E := by
    intro dot
    have member := List.mem_of_mem_drop (List.mem_of_mem_head? dot)
    simpa using noDot _ member
  have extension : (name.drop 8).take 3 = name.drop 8 :=
    List.take_of_length_le (by rw [List.length_drop]; have length := plain.1; omega)
  simp only [makeName83, base, rest, if_neg noDotNext, extension]
  rw [List.filter_append, filter_padTo 8 (noSpace _ fun char => List.mem_of_mem_take),
    filter_padTo 3 (noSpace _ fun char => List.mem_of_mem_drop), ← List.map_append,
    List.take_append_drop]

/-- Plain names have the same 8.3 names only if they differ in case alone. -/
theorem accountNames_eq_iff {left right : List UInt8} (leftPlain : PlainName left)
    (rightPlain : PlainName right) :
    accountNames left = accountNames right ↔ left.map toUpper = right.map toUpper := by
  have upper : ∀ {name}, PlainName name → upperCopy 16 name = name.map toUpper := by
    intro name plain
    rw [upperCopy, List.take_of_length_le (by have length := plain.1; omega)]
  have spelled : ∀ {name}, PlainName name →
      ((accountNames name).map (List.filter (· ≠ 0x20))).flatten = name.map toUpper := by
    intro name plain
    rw [accountNames, upper plain]
    by_cases empty : name = []
    · subst empty
      rfl
    · rw [plain.upper.components (by simpa using empty)]
      simp only [List.map_cons, List.map_nil, List.flatten_cons, List.flatten_nil, List.append_nil,
        plain.upper.spelled, List.map_map]
      apply List.map_congr_left
      intro char _
      exact toUpper_toUpper char
  constructor
  · intro same
    rw [← spelled leftPlain, ← spelled rightPlain, same]
  · intro same
    rw [accountNames, accountNames, upper leftPlain, upper rightPlain, same]

/-! ## Desktops apart -/

/-- The components of the path that `build_user_desktop_path` leaves for the desktop. -/
def desktopComponents (name : List UInt8) (ui : Ui) : List (List UInt8) :=
  (CString.ofArray (buildUserDesktopPath name ui).session.desktopDir).components83

/-- The walks to two desktops look up the same names exactly for the same 8.3 names. -/
theorem desktopComponents_eq_iff {content : List UInt8} {first second : User}
    (member : first ∈ accounts content) (member' : second ∈ accounts content) (ui : Ui) :
    (desktopComponents first.name ui).map makeName83 =
        (desktopComponents second.name ui).map makeName83 ↔
      accountNames first.name = accountNames second.name := by
  have path := components83_desktop (accounts_nulFree content first member)
  have path' := components83_desktop (accounts_nulFree content second member')
  show (CString.components83 _).map makeName83 = (CString.components83 _).map makeName83 ↔ _
  simp only [buildUserDesktopPath, path, path']
  simp

/-- On a FAT32 volume the desktops of two accounts are the same directory exactly if the
8.3 names of the accounts are the same, for plain names if they differ in case alone. -/
theorem desktop_eq_iff {content : List UInt8} {first second : User}
    (member : first ∈ accounts content) (member' : second ∈ accounts content) :
    (∀ (v : Vol) (sectors : Nat → Buffer), WellFormed v sectors →
      (∀ slot, Live v (view v v.clusterLimit sectors) (some slot) →
        direntIsDir (entryAt (view v v.clusterLimit sectors) slot) = true →
        direntStartCluster (entryAt (view v v.clusterLimit sectors) slot) ≠ 0) →
      ∀ ui slot slot',
        Resolves v (view v v.clusterLimit sectors) v.rootClus (desktopComponents first.name ui)
          slot →
        Resolves v (view v v.clusterLimit sectors) v.rootClus (desktopComponents second.name ui)
          slot' →
        (slot = slot' ↔ accountNames first.name = accountNames second.name)) ∧
    (PlainName first.name → PlainName second.name →
      (accountNames first.name = accountNames second.name ↔
        first.name.map toUpper = second.name.map toUpper)) := by
  constructor
  · intro v sectors wellFormed occupied ui slot slot' resolved resolved'
    rw [← desktopComponents_eq_iff member member' ui]
    constructor
    · intro same
      subst same
      exact wellFormed.owned.names_eq_of_resolves occupied resolved resolved'
    · intro same
      exact (resolved.congr same).unique resolved'
  · exact accountNames_eq_iff

/-- The default accounts, for which the names are plain. -/
theorem desktop_eq_iff_default :
    (ascii "admin").map toUpper ≠ (ascii "guest").map toUpper ∧
      accountNames (ascii "admin") ≠ accountNames (ascii "guest") := by
  have apart : (ascii "admin").map toUpper ≠ (ascii "guest").map toUpper := by decide
  have admin : (⟨ascii "admin", ascii "1234"⟩ : User) ∈ accounts [] := by decide
  have guest : (⟨ascii "guest", []⟩ : User) ∈ accounts [] := by decide
  exact ⟨apart, fun same =>
    apart (((desktop_eq_iff admin guest).2 (by decide) (by decide)).mp same)⟩

/-- Two accounts whose names differ in case have a password each and one desktop. Names
beyond 11 characters, and names with a slash or a dot, may share one as well. -/
theorem desktop_shared :
    let content := ascii "bob:1\nBOB:2\n"
    let first : User := ⟨ascii "bob", ascii "1"⟩
    let second : User := ⟨ascii "BOB", ascii "2"⟩
    first ∈ accounts content ∧ second ∈ accounts content ∧ first.name ≠ second.name ∧
      userVerify (accounts content) first.name second.pass = false ∧
      (∀ v store ui slot slot', Resolves v store v.rootClus (desktopComponents first.name ui) slot →
        Resolves v store v.rootClus (desktopComponents second.name ui) slot' → slot = slot') ∧
      accountNames (ascii "christopher1") = accountNames (ascii "christopher2") ∧
      accountNames (ascii "bob/") = accountNames (ascii "bob") ∧
      accountNames (ascii "bob.") = accountNames (ascii "bob") := by
  refine ⟨by decide, by decide, by decide, by decide, ?_, by decide, by decide, by decide⟩
  intro v store ui slot slot' resolved resolved'
  have same : accountNames (ascii "bob") = accountNames (ascii "BOB") := by decide
  have names := (@desktopComponents_eq_iff (ascii "bob:1\nBOB:2\n") ⟨ascii "bob", ascii "1"⟩
    ⟨ascii "BOB", ascii "2"⟩ (by decide) (by decide) ui).mpr same
  exact (resolved.congr names).unique resolved'

end ParanOS

import ParanOS.Kernel.Selected

/-! # Down and up a path

`path_join` puts a name behind the path of a directory. `path_dirname` and the button "Up" of the
Explorer take the last name off again. Each is a loop over the characters of its own; what they
compute is compared with the lists that the other modules use for them.
-/

namespace ParanOS

open Foundation

/-! ## The loops -/

/-- `for (i = 0; source[i] && j + 1 < dst_sz; ++i) dst[j++] = source[i];` -/
def appendLoop (size : Nat) : (dst source : List UInt8) → List UInt8
  | dst, [] => dst
  | dst, char :: rest =>
      if dst.length + 1 < size then appendLoop size (dst ++ [char]) rest else dst

/-- `while (i >= 0 && skip(path[i])) i--;` with `i` one less than the argument. -/
def scanBack (skip : UInt8 → Bool) (path : List UInt8) : Nat → Int
  | 0 => -1
  | i + 1 => if skip (path.getD i 0) then scanBack skip path i else i

theorem appendLoop_eq (size : Nat) (dst source : List UInt8) :
    appendLoop size dst source = dst ++ source.take (size - 1 - dst.length) := by
  induction source generalizing dst with
  | nil => rw [appendLoop, List.take_nil, List.append_nil]
  | cons char rest induction =>
      rw [appendLoop]
      split
      · next room =>
          have more : size - 1 - dst.length = (size - 1 - (dst.length + 1)) + 1 := by omega
          rw [induction, List.length_append, List.length_singleton, more, List.take_succ_cons,
            List.append_assoc, List.singleton_append]
      · next full =>
          have none : size - 1 - dst.length = 0 := by omega
          rw [none, List.take_zero, List.append_nil]

/-- What is in front of the place where the scan ends, with the character there. -/
theorem take_scanBack (skip : UInt8 → Bool) (path : List UInt8) {count : Nat}
    (inside : count ≤ path.length) :
    -1 ≤ scanBack skip path count ∧ scanBack skip path count < path.length ∧
      path.take (scanBack skip path count + 1).toNat = (path.take count).rdropWhile skip := by
  induction count with
  | zero =>
      rw [scanBack]
      exact ⟨Int.le_refl _, by omega, by simp⟩
  | succ i induction =>
      have read : path.getD i 0 = path[i] := by
        rw [List.getD_eq_getElem?_getD, List.getElem?_eq_getElem inside, Option.getD_some]
      have split : path.take (i + 1) = path.take i ++ [path[i]] :=
        (List.take_append_getElem inside).symm
      rw [scanBack, read]
      by_cases skipped : skip path[i] = true
      · rw [if_pos skipped, split, List.rdropWhile_concat_pos _ _ _ skipped]
        exact induction (by omega)
      · rw [if_neg skipped, split, List.rdropWhile_concat_neg _ _ _ skipped, ← split]
        exact ⟨by omega, by omega, by congr 1⟩

/-- The path is cut off at the place where a scan ends, and is empty if that is its start. -/
theorem take_of_scanBack {skip : UInt8 → Bool} {path : List UInt8} {count : Nat}
    (inside : count ≤ path.length) :
    (if scanBack skip path count ≤ 0 then [] else path.take (scanBack skip path count).toNat) =
      ((path.take count).rdropWhile skip).dropLast := by
  rcases take_scanBack skip path inside with ⟨lower, upper, taken⟩
  have cut : (path.take (scanBack skip path count + 1).toNat).dropLast =
      path.take ((scanBack skip path count + 1).toNat - 1) := by
    rw [List.dropLast_eq_take, List.length_take, List.take_take]
    congr 1
    omega
  rw [← taken, cut]
  split
  · next start =>
      have none : (scanBack skip path count + 1).toNat - 1 = 0 := by omega
      rw [none, List.take_zero]
  · next behind =>
      congr 1
      omega

/-- `path_join`, loop by loop. -/
theorem pathJoin_eq_loops (size : Nat) (dir name : List UInt8) :
    pathJoin size dir name =
      let dst := appendLoop size [] dir
      let dst := if dst ≠ [] ∧ dst.getLast? ≠ some 0x2F ∧ dst.length + 1 < size then dst ++ [0x2F]
        else dst
      appendLoop size dst name := by
  simp only [appendLoop_eq, List.length_nil, List.nil_append, Nat.sub_zero]
  rfl

/-- `path_dirname` with its scan for the last slash. -/
theorem pathDirname_eq_scan (size : Nat) (fullpath : List UInt8) :
    pathDirname size fullpath =
      let i := scanBack (· ≠ 0x2F) fullpath fullpath.length
      if i ≤ 0 then [] else fullpath.take (min i.toNat (size - 1)) := by
  have scanned := @take_of_scanBack (· ≠ 0x2F) fullpath _ (Nat.le_refl _)
  rw [List.take_length] at scanned
  rw [pathDirname, ← scanned]
  dsimp only
  split
  · exact List.take_nil
  · rw [List.take_take, Nat.min_comm]

/-- The two scans of `filewin_go_up`. -/
theorem pathAbove_eq_scan (path : List UInt8) :
    pathAbove path =
      let i := scanBack (· = 0x2F) path path.length
      let i := scanBack (· ≠ 0x2F) path (i + 1).toNat
      if i ≤ 0 then [] else path.take i.toNat := by
  rcases take_scanBack (· = 0x2F) path (Nat.le_refl _) with ⟨lower, upper, taken⟩
  rw [List.take_length] at taken
  dsimp only
  rw [take_of_scanBack (by omega), taken, pathAbove]

/-! ## There and back -/

theorem rdropWhile_append {skip : UInt8 → Bool} (front : List UInt8) {back : List UInt8}
    (skipped : ∀ char ∈ back, skip char = true) :
    (front ++ back).rdropWhile skip = front.rdropWhile skip := by
  induction back using List.reverseRecOn with
  | nil => rw [List.append_nil]
  | append_singleton back last induction =>
      rw [← List.append_assoc, List.rdropWhile_concat_pos _ _ _ (skipped last (by simp))]
      exact induction fun char member => skipped char (List.mem_append_left _ member)

/-- The path of a directory, and the name of something in it. -/
structure Child (dir name : List UInt8) : Prop where
  dir_ne_nil : dir ≠ []
  unended : dir.getLast? ≠ some 0x2F
  name_ne_nil : name ≠ []
  single : 0x2F ∉ name

section

variable {dir name : List UInt8} (child : Child dir name)
include child

theorem Child.pathJoin_eq {size : Nat} (fits : dir.length + 1 + name.length < size) :
    pathJoin size dir name = dir ++ 0x2F :: name := by
  have whole : dir.take (size - 1) = dir := List.take_of_length_le (by omega)
  have rest : name.take (size - 1 - (dir.length + 1)) = name := List.take_of_length_le (by omega)
  rw [pathJoin, whole, if_pos ⟨child.dir_ne_nil, child.unended, by omega⟩, List.length_append,
    List.length_singleton, rest, List.append_assoc, List.singleton_append]

/-- The scan for the last slash ends in front of the name. -/
theorem Child.rdropWhile_joined :
    (dir ++ 0x2F :: name).rdropWhile (· ≠ 0x2F) = dir ++ [0x2F] := by
  have passed : ∀ char ∈ name, decide (char ≠ 0x2F) = true := by
    intro char member
    rw [decide_eq_true_iff]
    rintro rfl
    exact child.single member
  rw [← List.singleton_append, ← List.append_assoc, rdropWhile_append _ passed]
  exact List.rdropWhile_concat_neg _ _ _ (by decide)

theorem Child.pathDirname_joined {size : Nat} (fits : dir.length < size) :
    pathDirname size (dir ++ 0x2F :: name) = dir := by
  rw [pathDirname, child.rdropWhile_joined, List.dropLast_concat]
  exact List.take_of_length_le (by omega)

theorem Child.pathAbove_joined : pathAbove (dir ++ 0x2F :: name) = dir := by
  -- the path does not end with a slash, as the name does not
  have last : (dir ++ 0x2F :: name).rdropWhile (· = 0x2F) = dir ++ 0x2F :: name := by
    rw [List.rdropWhile_eq_self_iff]
    intro _ slash
    rw [decide_eq_true_iff, List.getLast_append_of_ne_nil _ (List.cons_ne_nil _ _),
      List.getLast_cons child.name_ne_nil] at slash
    exact child.single (slash ▸ List.getLast_mem child.name_ne_nil)
  rw [pathAbove, last, child.rdropWhile_joined, List.dropLast_concat]

end

/-! ## The Explorer -/

/-- Opening a directory by its name: the path that is set is listed. -/
def filewinGoDown (env : Env) (size : Nat) (name : List UInt8) (ui : Ui) : DiskM Ui :=
  filewinSetPath env (pathJoin size ui.filewin.path name) ui

section

variable {ui : Ui} {name : List UInt8} (child : Child ui.filewin.path name) {size : Nat}
  (fits : ui.filewin.path.length + 1 + name.length < size)
  (held : ui.filewin.path.length + 1 + name.length < filewinPathSize)
include child fits held

theorem Child.filewinGoDown_eq (env : Env) :
    filewinGoDown env size name ui = filewinRefreshList env { ui with filewin := { ui.filewin with
      path := ui.filewin.path ++ 0x2F :: name, selection := none } } := by
  have whole : copyInto filewinPathSize (ui.filewin.path ++ 0x2F :: name) =
      ui.filewin.path ++ 0x2F :: name := by
    apply List.take_of_length_le
    rw [List.length_append, List.length_cons]
    omega
  rw [filewinGoDown, child.pathJoin_eq fits, filewinSetPath, if_neg (by simp), whole]

omit fits held in
theorem Child.filewinGoUp_eq (env : Env) {ui' : Ui}
    (opened : ui'.filewin.path = ui.filewin.path ++ 0x2F :: name) :
    filewinGoUp env ui' = filewinRefreshList env { ui' with filewin := { ui'.filewin with
      path := ui.filewin.path } } := by
  rw [filewinGoUp, opened, child.pathAbove_joined, if_neg (by simp), if_neg child.dir_ne_nil]

theorem Child.filewinGoDown_path (env : Env) : Ensures (filewinGoDown env size name ui) fun ui' =>
    ui'.filewin.path = ui.filewin.path ++ 0x2F :: name := by
  rw [child.filewinGoDown_eq fits held]
  refine (filewinRefreshList_only env _).mono fun ui' only => ?_
  rcases only with ⟨_, _, _, _, _, _, _, rfl⟩
  rfl

omit fits held in
theorem Child.filewinGoUp_path (env : Env) {ui' : Ui}
    (opened : ui'.filewin.path = ui.filewin.path ++ 0x2F :: name) :
    Ensures (filewinGoUp env ui') fun ui'' => ui''.filewin.path = ui.filewin.path := by
  rw [child.filewinGoUp_eq env opened]
  refine (filewinRefreshList_only env _).mono fun ui'' only => ?_
  rcases only with ⟨_, _, _, _, _, _, _, rfl⟩
  rfl

theorem Child.downAndUp_returns {env : Env} {sectors : Nat → Buffer}
    (ready : DiskReady env ui sectors) : ∃ ui'' device',
      (filewinGoDown env size name ui >>= filewinGoUp env) (Device.healthy sectors) =
        some (ui'', device') := by
  have path := child.filewinGoDown_path fits held env
  rw [child.filewinGoDown_eq fits held] at path ⊢
  have listing := @DiskReady.filewinRefresh env { ui with filewin := { ui.filewin with
    path := ui.filewin.path ++ 0x2F :: name, selection := none } } sectors ready
  rcases listing with ⟨ui', ran, ready'⟩
  rw [DiskM.bind_run ran, child.filewinGoUp_eq env (path.returns ran)]
  have listing := @DiskReady.filewinRefresh env { ui' with filewin := { ui'.filewin with
    path := ui.filewin.path } } sectors ready'
  exact listing.imp fun _ listed => ⟨_, listed.1⟩

end

/-- Down a path and up again: `path_dirname` gives back the directory that a name was joined to,
and "Up" after opening a directory shows the path from before, if it returns. It returns if there
is no volume, or a well-formed one on a disk without faults. -/
theorem goUp_after_goDown :
    (∀ dir name, Child dir name → ∀ size outsz, dir.length + 1 + name.length < size →
      dir.length < outsz → pathDirname outsz (pathJoin size dir name) = dir) ∧
    ∀ env ui name, Child ui.filewin.path name → ∀ size,
      ui.filewin.path.length + 1 + name.length < size →
      ui.filewin.path.length + 1 + name.length < filewinPathSize →
      Ensures (filewinGoDown env size name ui >>= filewinGoUp env) (fun ui' =>
        ui'.filewin.path = ui.filewin.path) ∧
      ∀ sectors, DiskReady env ui sectors → ∃ ui' device',
        (filewinGoDown env size name ui >>= filewinGoUp env) (Device.healthy sectors) =
          some (ui', device') := by
  constructor
  · intro dir name child size outsz fits room
    rw [child.pathJoin_eq fits, child.pathDirname_joined room]
  · intro env ui name child size fits held
    refine ⟨?_, fun sectors ready => child.downAndUp_returns fits held ready⟩
    exact (child.filewinGoDown_path fits held env).bind fun ui' opened =>
      child.filewinGoUp_path env opened

/-- The Explorer in the directory of the users. -/
def usersUi : Ui :=
  { Ui.initial blankVol with
    filewin := ⟨Window.zero, false, ascii "PARANOS/USERS", none⟩ }

theorem goUp_after_goDown_users :
    pathDirname 96 (pathJoin 96 (ascii "PARANOS/USERS") (ascii "ADMIN")) =
        ascii "PARANOS/USERS" ∧
      ∃ ui' device', (filewinGoDown sampleEnv 96 (ascii "ADMIN") usersUi >>=
          filewinGoUp sampleEnv) (Device.healthy fun _ _ => 0) = some (ui', device') ∧
        ui'.filewin.path = ascii "PARANOS/USERS" := by
  have child : Child (ascii "PARANOS/USERS") (ascii "ADMIN") := by constructor <;> decide
  have fits : (ascii "PARANOS/USERS").length + 1 + (ascii "ADMIN").length < 96 := by decide
  have explorer := goUp_after_goDown.2 sampleEnv usersUi (ascii "ADMIN") child 96 fits fits
  have ready : DiskReady sampleEnv usersUi fun _ _ => 0 := fun mounted => absurd mounted (by decide)
  rcases explorer.2 _ ready with ⟨ui', device', ran⟩
  exact ⟨goUp_after_goDown.1 _ _ child 96 96 fits (by decide), ui', device', ran,
    explorer.1.returns ran⟩

end ParanOS

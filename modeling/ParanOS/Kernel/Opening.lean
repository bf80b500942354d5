import ParanOS.Kernel.Explorer

/-! # Opening a text file

A text file is opened from the list of the Explorer and from the launch menu. What is loaded is
told apart by one run on a disk that cannot be read: the path is then all that the editor shows.
-/

namespace ParanOS

open Foundation

/-! ## The ways to open one -/

/-- A user program in the launch menu, as `launch_refresh_items` fills it in. -/
def programEntry (dir name83 : List UInt8) : LaunchItem :=
  ⟨copyInto 32 name83, .app, pathJoin 96 dir name83⟩

inductive Opening
  | doubleClick (input : Input) (item : DesktopItem)
  | contextMenu (item : DesktopItem)
  | launchMenu (dir name83 : List UInt8)

namespace Opening

def run (env : Env) (ui : Ui) : Opening → DiskM Ui
  | doubleClick input item => openFileItem env input item ui
  | contextMenu _ => fileOpenSelected env ui
  | launchMenu dir name83 => launchAction env (programEntry dir name83) ui

/-- `path_join` of the directory that was listed and the name. -/
def fullPath (ui : Ui) : Opening → List UInt8
  | doubleClick _ item => listedFile ui item
  | contextMenu item => listedFile ui item
  | launchMenu dir name83 => pathJoin 96 dir name83

/-- The name that is handed to the editor. -/
def name : Opening → List UInt8
  | doubleClick _ item => item.name
  | contextMenu item => item.name
  | launchMenu _ name83 => copyInto 13 (copyInto 32 name83)

/-- The item is in the list or the menu and ends with .TXT, and a file picker does not take the
double click. -/
def Offered (ui : Ui) : Opening → Prop
  | doubleClick _ item => item ∈ ui.fileItems ∧ item.isDir = false ∧
      strIeqExt item.name (ascii "TXT") = true ∧ ui.picker.active = false
  | contextMenu item => ui.fileSelected = some item ∧ item.isDir = false ∧
      strIeqExt item.name (ascii "TXT") = true
  | launchMenu dir name83 => programEntry dir name83 ∈ ui.launch.items ∧
      strIeqExt (copyInto 32 name83) (ascii "TXT") = true

/-- Whatever is on the disk, whichever calls fail and whatever the bound on the loops: what is
done is to load the editor from the path. -/
def Loads (opening : Opening) (env : Env) (path : List UInt8) (ui : Ui) : Prop :=
  ∀ fuel device, opening.run { env with fuel := fuel } ui device =
    notepadOpenPath { env with fuel := fuel } path ui device

end Opening

/-- The strings lie inside `g_desktop_dir[64]` and `name[13]` of the items. -/
structure InsideArrays (ui : Ui) : Prop where
  desktopDir : ui.session.desktopDir.length < 64
  names : ∀ item ∈ ui.fileItems, item.name.length < 13

/-! ## Paths -/

theorem pathJoin_ne_nil {size : Nat} {dir name : List UInt8} (room : 1 < size)
    (named : name ≠ []) : pathJoin size dir name ≠ [] := by
  intro empty
  rw [pathJoin] at empty
  rcases List.append_eq_nil_iff.mp empty with ⟨front, back⟩
  rw [front, List.length_nil] at back
  cases List.take_eq_nil_iff.mp back with
  | inl none => omega
  | inr unnamed => exact named unnamed

theorem pathJoin_length_le (size : Nat) (dir name : List UInt8) :
    (pathJoin size dir name).length ≤ dir.length + 1 + name.length := by
  have front : (dir.take (size - 1)).length ≤ dir.length := List.length_take_le' _ _
  have back (room : Nat) : (name.take room).length ≤ name.length := List.length_take_le' _ _
  rw [pathJoin, List.length_append]
  split
  · rw [List.length_append, List.length_singleton]
    have := back (size - 1 - (dir.take (size - 1) ++ [0x2F]).length)
    rw [List.length_append, List.length_singleton] at this
    omega
  · have := back (size - 1 - (dir.take (size - 1)).length)
    omega

theorem named_of_txt {name ext : List UInt8} (isText : strIeqExt name ext = true) : name ≠ [] := by
  intro empty
  rw [strIeqExt, empty, decide_eq_true_eq] at isText
  exact absurd isText.2.1 List.not_mem_nil

/-! ## A disk that cannot be read -/

/-- Every read call fails. -/
def unreadable : Device := ⟨fun _ _ => 0, fun _ => true, fun _ => false⟩

theorem dirFindEntry_unreadable (v : Vol) (want11 : List UInt8) (dirCl : Nat) :
    ∃ code, dirFindEntry v want11 2 dirCl unreadable = some (.error code, unreadable) := by
  rw [dirFindEntry, dirScan]
  by_cases ended : isEndCluster dirCl = true
  · rw [if_pos ended]
    exact ⟨-3, rfl⟩
  · rw [if_neg ended]
    cases v.secPerClus with
    | zero => exact ⟨-3, rfl⟩
    | succ count =>
        rw [List.range_succ_eq_map]
        exact ⟨-1, rfl⟩

theorem findSlots_unreadable (v : Vol) (want : List UInt8) (cluster : Nat) (offsets : List Nat) :
    ∃ result, findSlots v want cluster offsets unreadable = some ((v, result), unreadable) ∧
      ∀ info, result ≠ some (.ok info) := by
  cases offsets with
  | nil => exact ⟨none, rfl, by simp⟩
  | cons byteOff rest => exact ⟨some (.error (-1)), rfl, by simp⟩

theorem exfatFindInDir_unreadable (v : Vol) (want : List UInt8) (cluster : Nat) :
    ∃ code, exfatFindInDir want 2 cluster v unreadable = some ((v, .error code), unreadable) := by
  rw [exfatFindInDir]
  by_cases ended : isEndCluster cluster = true
  · rw [if_pos ended]
    exact ⟨-3, rfl⟩
  · rw [if_neg ended]
    rcases findSlots_unreadable v want cluster (clusterOffsets v) with ⟨result, ran, missing⟩
    rw [DiskM.bind_run ran]
    cases result with
    | none => exact ⟨-3, rfl⟩
    | some found =>
        cases found with
        | error code => exact ⟨code, rfl⟩
        | ok info => exact absurd rfl (missing info)

theorem fat32ReadFilePath_unreadable (v : Vol) (path : CString) (maxBytes : Nat) :
    ∃ result, fat32ReadFilePath v 2 path maxBytes unreadable =
      some ((v, result), unreadable) := by
  unfold fat32ReadFilePath
  cases v.fsType with
  | exfat =>
      dsimp only
      rw [exfatReadWalk]
      cases path.componentsLong with
      | nil => exact ⟨_, rfl⟩
      | cons comp rest =>
          rcases exfatFindInDir_unreadable v comp v.rootClus with ⟨code, ran⟩
          refine ⟨⟨code, 0, []⟩, ?_⟩
          rw [followWalk, DiskM.bind_run (DiskM.bind_run ran)]
          rfl
  | fat32 =>
      dsimp only
      cases path.components83 with
      | nil => exact ⟨_, rfl⟩
      | cons comp rest =>
          rcases dirFindEntry_unreadable v (makeName83 comp) v.rootClus with ⟨code, ran⟩
          refine ⟨⟨-2, 0, []⟩, ?_⟩
          rw [readWalk, DiskM.bind_run (DiskM.bind_run ran)]
          rfl

/-- On such a disk the editor shows the path and nothing else. -/
theorem notepadOpenPath_unreadable (env : Env) {path : List UInt8} (given : path ≠ []) (ui : Ui) :
    ∃ ui', notepadOpenPath { env with fuel := 2 } path ui unreadable = some (ui', unreadable) ∧
      ui'.notepad.path = copyInto 96 path := by
  rcases fat32ReadFilePath_unreadable ui.vol (.ofArray path) (notepadBufSize - 1) with
    ⟨result, ran⟩
  have read : Ui.readFile (notepadSetPathAndName path { ui with notepad := ⟨.zero, [], [], []⟩ })
      { env with fuel := 2 } path (notepadBufSize - 1) unreadable = some ((_, result), _) :=
    DiskM.bind_run ran
  rw [notepadOpenPath, if_neg given, DiskM.bind_run read]
  exact ⟨_, rfl, rfl⟩

/-- A path that fits into the editor is told apart from every other. -/
theorem notepadOpenPath_same {env : Env} {path other : List UInt8} {ui : Ui} (given : path ≠ [])
    (otherGiven : other ≠ []) (short : path.length < 95)
    (same : ∀ fuel device, notepadOpenPath { env with fuel := fuel } path ui device =
      notepadOpenPath { env with fuel := fuel } other ui device) : other = path := by
  rcases notepadOpenPath_unreadable env given ui with ⟨shown, ran, shownPath⟩
  rcases notepadOpenPath_unreadable env otherGiven ui with ⟨shown', ran', shownPath'⟩
  have equal := same 2 unreadable
  rw [ran, ran', Option.some.injEq, Prod.mk.injEq] at equal
  have cut : other.take 95 = path.take 95 := by
    rw [equal.1] at shownPath
    exact shownPath'.symm.trans shownPath
  have whole : path.take 95 = path := List.take_of_length_le (by omega)
  rw [whole] at cut
  have lengths := congrArg List.length cut
  rw [List.length_take] at lengths
  rw [← cut, List.take_of_length_le (by omega)]

/-! ## What is loaded -/

theorem Opening.Offered.named {ui : Ui} {opening : Opening} (offered : opening.Offered ui) :
    opening.name ≠ [] := by
  cases opening with
  | doubleClick input item => exact named_of_txt offered.2.2.1
  | contextMenu item => exact named_of_txt offered.2.2
  | launchMenu dir name83 =>
      have entryNamed := named_of_txt offered.2
      intro empty
      cases List.take_eq_nil_iff.mp empty with
      | inl none => exact absurd none (by decide)
      | inr unnamed => exact entryNamed unnamed

/-- Every way to open a text file goes to the desktop of the user. -/
theorem Opening.Offered.run_eq {ui : Ui} {opening : Opening} (offered : opening.Offered ui)
    (env : Env) :
    opening.run env ui = notepadOpenPath env (desktopPathForName ui opening.name) ui := by
  cases opening with
  | doubleClick input item =>
      rcases offered with ⟨_, notDir, isText, noPicker⟩
      rw [Opening.run, openFileItem, notDir, noPicker, if_neg Bool.false_ne_true,
        if_neg Bool.false_ne_true, if_pos isText]
      rfl
  | contextMenu item =>
      rcases offered with ⟨selected, notDir, isText⟩
      rw [Opening.run, fileOpenSelected, selected]
      dsimp only
      rw [notDir, if_neg Bool.false_ne_true, if_pos isText]
      rfl
  | launchMenu dir name83 => exact if_pos offered.2

theorem Opening.Offered.name_length {ui : Ui} {opening : Opening} (inside : InsideArrays ui)
    (offered : opening.Offered ui) : opening.name.length < 13 := by
  cases opening with
  | doubleClick input item => exact inside.names item offered.1
  | contextMenu item =>
      rcases Option.bind_eq_some_iff.mp offered.1 with ⟨index, _, listed⟩
      exact inside.names item (List.mem_of_getElem? listed)
  | launchMenu dir name83 =>
      exact Nat.lt_of_le_of_lt (List.length_take_le 12 _) (by decide)

theorem Opening.loads_iff_desktop (env : Env) {ui : Ui} {opening : Opening}
    (inside : InsideArrays ui) (offered : opening.Offered ui) :
    opening.Loads env (opening.fullPath ui) ui ↔
      opening.fullPath ui = desktopPathForName ui opening.name := by
  have runs := offered.run_eq
  constructor
  · intro loads
    have given : desktopPathForName ui opening.name ≠ [] :=
      pathJoin_ne_nil (by decide) offered.named
    have fullGiven : opening.fullPath ui ≠ [] := by
      cases opening with
      | doubleClick input item => exact pathJoin_ne_nil (by decide) offered.named
      | contextMenu item => exact pathJoin_ne_nil (by decide) offered.named
      | launchMenu dir name83 =>
          apply pathJoin_ne_nil (by decide)
          intro empty
          have nothing : (Opening.launchMenu dir name83).name = [] := by rw [empty]; rfl
          exact offered.named nothing
    have length := pathJoin_length_le 96 ui.session.desktopDir opening.name
    have short : (desktopPathForName ui opening.name).length < 95 := by
      have bounds := And.intro inside.desktopDir (offered.name_length inside)
      rw [desktopPathForName]
      omega
    apply notepadOpenPath_same given fullGiven short
    intro fuel device
    rw [← runs]
    exact loads fuel device
  · intro equal fuel device
    rw [runs, equal]

/-- The directory is the front of the joined path. -/
theorem pathJoin_getElem? {size index : Nat} {dir name : List UInt8} (room : index < size - 1)
    (inside : index < dir.length) : (pathJoin size dir name)[index]? = dir[index]? := by
  have front : index < (dir.take (size - 1)).length := by
    rw [List.length_take]
    omega
  rw [pathJoin]
  split
  · rw [List.append_assoc, List.getElem?_append_left front, List.getElem?_take_of_lt room]
  · rw [List.getElem?_append_left front, List.getElem?_take_of_lt room]

/-- The programs of a user are not on the desktop of that user. -/
theorem programs_not_desktop (uname name name' : List UInt8) :
    pathJoin 96 (userDir uname ++ ascii "/PROGRAMS") name ≠
      pathJoin 96 (userDir uname ++ ascii "/DESKTOP") name' := by
  intro same
  have short : (userDir uname).length ≤ 29 := by
    have user : (upperCopy 16 uname).length ≤ 15 := by
      rw [upperCopy, List.length_map]
      exact List.length_take_le 15 _
    rw [userDir, List.length_append, List.length_append]
    have fixed : pathBaseDir.length + (ascii "/USERS/").length = 14 := by decide
    omega
  have letter := congrArg (·[(userDir uname).length + 1]?) same
  have program : (userDir uname ++ ascii "/PROGRAMS")[(userDir uname).length + 1]? = some 0x50 := by
    rw [List.getElem?_append_right (Nat.le_add_right _ 1), Nat.add_sub_cancel_left]
    rfl
  have desktop : (userDir uname ++ ascii "/DESKTOP")[(userDir uname).length + 1]? = some 0x44 := by
    rw [List.getElem?_append_right (Nat.le_add_right _ 1), Nat.add_sub_cancel_left]
    rfl
  have behind {last : List UInt8} (long : 1 < last.length) :
      (userDir uname).length + 1 < (userDir uname ++ last).length := by
    rw [List.length_append]
    exact Nat.add_lt_add_left long _
  rw [pathJoin_getElem? (by omega) (behind (by decide)),
    pathJoin_getElem? (by omega) (behind (by decide)), program, desktop] at letter
  exact absurd letter (by decide)

/-- An item is loaded from its own path exactly when that is the path of its name on the
desktop. A program of the user who is logged in never is. -/
theorem opening_loads_iff (env : Env) {ui : Ui} {opening : Opening} (inside : InsideArrays ui)
    (offered : opening.Offered ui) :
    (opening.Loads env (opening.fullPath ui) ui ↔
      opening.fullPath ui = desktopPathForName ui opening.name) ∧
    ∀ uname name83, ui.session = (buildUserDesktopPath uname ui).session →
      opening = .launchMenu ui.session.progDir name83 →
      ¬ opening.Loads env (opening.fullPath ui) ui := by
  have loads := opening.loads_iff_desktop env inside offered
  refine ⟨loads, ?_⟩
  intro uname name83 user program own
  have equal := loads.mp own
  rw [program, Opening.fullPath, desktopPathForName, user] at equal
  exact programs_not_desktop uname _ _ equal

/-- The Explorer shows the only file of this directory. -/
def showing (dir : List UInt8) : Ui :=
  { Ui.initial blankVol with
    filewin := ⟨.zero, false, dir, some 0⟩
    fileItems := [⟨ascii "A.TXT", 0x20, 1⟩]
    listedPath := dir }

theorem showing_insideArrays (dir : List UInt8) : InsideArrays (showing dir) := by
  constructor
  · exact (by decide : (ascii "PARANOS/USERS/ADMIN/DESKTOP").length < 64)
  · intro item member
    rw [List.mem_singleton.mp member]
    decide

theorem showing_offered (dir : List UInt8) :
    (Opening.contextMenu ⟨ascii "A.TXT", 0x20, 1⟩).Offered (showing dir) :=
  ⟨rfl, by decide, by decide⟩

/-- The desktop itself is shown. -/
theorem opening_loads_iff_desktop :
    (Opening.contextMenu ⟨ascii "A.TXT", 0x20, 1⟩).Loads sampleEnv
      (ascii "PARANOS/USERS/ADMIN/DESKTOP/A.TXT")
      (showing (ascii "PARANOS/USERS/ADMIN/DESKTOP")) :=
  (opening_loads_iff sampleEnv (showing_insideArrays _) (showing_offered _)).1.mpr (by decide)

/-- In the directory `PARANOS` the file of the same name on the desktop is loaded. -/
theorem fileOpenSelected_loads_desktop :
    ¬ ∀ (env : Env) (ui : Ui) (opening : Opening), InsideArrays ui → opening.Offered ui →
      opening.Loads env (opening.fullPath ui) ui := by
  intro claim
  have loads := claim sampleEnv _ _ (showing_insideArrays (ascii "PARANOS")) (showing_offered _)
  have equal := (Opening.loads_iff_desktop sampleEnv (showing_insideArrays _)
    (showing_offered _)).mp loads
  exact absurd equal (by decide)

end ParanOS

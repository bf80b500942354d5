import ParanOS.Kernel.Saving
import ParanOS.Kernel.UserFile

/-! # The account that a login checks

The login screen selects an account by its place in the list. `login_attempt` takes its name,
and `user_verify` checks the password of the first account of that name. Names are cut to 15
characters when accounts are added, and no one looks whether a name is there already.
-/

namespace ParanOS

open Foundation

/-- The account at a place in the list. -/
def accountAt (users : List User) (selected : Nat) : User := users.getD selected ⟨[], []⟩

/-- The login screen is shown with these accounts, one of which is selected. -/
structure Choosing (users : List User) (selected : Nat) (ui : Ui) : Prop where
  active : ui.login.active = true
  users : ui.login.users = users
  selected : ui.login.selected = selected

/-- Whenever `login_attempt` returns, it has ended the login just if the password that was
typed is that of the account that is selected. -/
def ChecksSelected (users : List User) (selected : Nat) : Prop :=
  ∀ (env : Env) (ui ui' : Ui) (device device' : Device), Choosing users selected ui →
    loginAttempt env ui device = some (ui', device') →
    (ui'.login.active = false ↔ ui.login.pw = (accountAt users selected).pass)

/-- The first account of the same name has the same password. -/
def FirstAlike (users : List User) (selected : Nat) : Prop :=
  (users.find? fun user => user.name == (accountAt users selected).name).map (·.pass) =
    some (accountAt users selected).pass

instance (users : List User) (selected : Nat) : Decidable (FirstAlike users selected) :=
  inferInstanceAs (Decidable (_ = _))

/-! ## What is checked -/

theorem accountAt_mem {users : List User} {selected : Nat} (inside : selected < users.length) :
    accountAt users selected ∈ users := by
  rw [accountAt, List.getD_eq_getElem _ _ inside]
  exact List.getElem_mem inside

/-- An account of the list is found under its name, or one before it. -/
theorem find_name {users : List User} {user : User} (member : user ∈ users) :
    ∃ first, (users.find? fun other => other.name == user.name) = some first := by
  apply Option.isSome_iff_exists.mp
  rw [List.find?_isSome]
  exact ⟨user, member, by simp⟩

theorem loginSucceeds_choosing {users : List User} {selected : Nat} {ui : Ui}
    (choosing : Choosing users selected ui) (inside : selected < users.length) :
    loginSucceeds ui = userVerify users (accountAt users selected).name ui.login.pw := by
  have nonempty : users ≠ [] := by
    intro empty
    rw [empty] at inside
    exact Nat.not_lt_zero selected inside
  have chosen : loginUser ui = (selected, users) := by
    simp only [loginUser, choosing.users, choosing.selected, if_neg nonempty]
    rw [if_neg (show ¬ selected ≥ users.length by omega)]
  rw [loginSucceeds, chosen, accountAt]

/-- The login ends just if the password is that of the first account of the name. -/
theorem loginAttempt_ends_iff {users : List User} {selected : Nat} {env : Env} {ui ui' : Ui}
    {device device' : Device} {first : User} (choosing : Choosing users selected ui)
    (inside : selected < users.length)
    (found : (users.find? fun user => user.name == (accountAt users selected).name) = some first)
    (ran : loginAttempt env ui device = some (ui', device')) :
    ui'.login.active = false ↔ ui.login.pw = first.pass := by
  have active := ((loginAttempt_only env ui).returns ran).2
  rw [active, choosing.active, loginSucceeds_choosing choosing inside, userVerify, found]
  simp only [Bool.true_and, Bool.not_eq_false', beq_iff_eq]
  exact eq_comm

/-! ## A login attempt returns -/

theorem bind_returns {α β : Type} {program : DiskM α} {rest : α → DiskM β} {device : Device}
    (first : ∃ value middle, program device = some (value, middle))
    (later : ∀ value middle, ∃ result device', rest value middle = some (result, device')) :
    ∃ result device', (program >>= rest) device = some (result, device') := by
  rcases first with ⟨value, middle, ran⟩
  rw [DiskM.bind_run ran]
  exact later value middle

/-- There is no volume, or a well-formed one on a disk without faults. -/
def DiskReady (env : Env) (ui : Ui) (sectors : Nat → Buffer) : Prop :=
  ui.volMounted = true → WellFormed ui.vol sectors ∧ ui.vol.clusterLimit < env.fuel

section

variable {env : Env} {ui : Ui} {sectors : Nat → Buffer} (ready : DiskReady env ui sectors)
include ready

theorem DiskReady.ensureUserDirs (uname : List UInt8) :
    ∃ sectors', ensureUserDirsOnDisk env uname ui (Device.healthy sectors) =
        some (ui, Device.healthy sectors') ∧ DiskReady env ui sectors' := by
  by_cases mounted : ui.volMounted = true
  · rcases ready mounted with ⟨wellFormed, enough⟩
    rcases ensureUserDirsOnDisk_onlyAdds wellFormed enough uname with ⟨sectors', ran, adds⟩
    exact ⟨sectors', ran, fun _ => ⟨adds.wellFormed wellFormed, enough⟩⟩
  · refine ⟨sectors, ?_, ready⟩
    rw [ensureUserDirsOnDisk, if_pos (by simpa using mounted)]
    rfl

theorem DiskReady.desktopRefresh :
    ∃ ui' sectors', desktopRefreshFromPath env ui (Device.healthy sectors) =
        some (ui', Device.healthy sectors') ∧ DiskReady env ui' sectors' := by
  by_cases mounted : ui.volMounted = true
  · rcases ready mounted with ⟨wellFormed, enough⟩
    rcases desktopRefreshFromPath_onlyAdds wellFormed enough with
      ⟨ui', sectors', ran, adds, vol, _⟩
    refine ⟨ui', sectors', ran, fun _ => ?_⟩
    rw [vol]
    exact ⟨adds.wellFormed wellFormed, enough⟩
  · refine ⟨ui, sectors, ?_, ready⟩
    rw [desktopRefreshFromPath, if_pos (by simpa using mounted)]
    rfl

theorem DiskReady.filewinRefresh :
    ∃ ui', filewinRefreshList env ui (Device.healthy sectors) =
      some (ui', Device.healthy sectors) ∧ DiskReady env ui' sectors := by
  rw [filewinRefreshList]
  dsimp only
  by_cases mounted : ui.volMounted = true
  · rcases ready mounted with ⟨wellFormed, enough⟩
    rcases fat32ListDirPath_healthy wellFormed enough (.ofArray ui.filewin.path)
      desktopMaxItems with ⟨⟨code, entries⟩, listed⟩
    have ran : Ui.listDir { ui with
          fileItems := [], fileStatus := [], listedPath := ui.filewin.path } env ui.filewin.path
        desktopMaxItems (Device.healthy sectors) = some ((_, code, entries), _) :=
      DiskM.bind_run listed
    rw [if_neg (by simpa using mounted), DiskM.bind_run ran]
    dsimp only
    split <;> exact ⟨_, rfl, ready⟩
  · rw [if_pos (by simpa using mounted)]
    exact ⟨_, rfl, ready⟩

theorem DiskReady.filewinRefresh_returns :
    ∃ ui' device', filewinRefreshList env ui (Device.healthy sectors) = some (ui', device') := by
  rcases DiskReady.filewinRefresh ready with ⟨ui', ran, _⟩
  exact ⟨ui', _, ran⟩

theorem DiskReady.startSession :
    ∃ ui' device', startDesktopSession env ui (Device.healthy sectors) = some (ui', device') := by
  rw [startDesktopSession]
  split
  · exact ⟨ui, _, rfl⟩
  · apply bind_returns
    · rw [filewinOpen]
      split
      · exact ⟨_, _, rfl⟩
      · apply bind_returns
        · exact DiskReady.filewinRefresh_returns ready
        · exact fun _ _ => ⟨_, _, rfl⟩
    · exact fun _ _ => ⟨_, _, rfl⟩

theorem DiskReady.enter (uname : List UInt8) :
    ∃ ui' device', (do
      let ui ← ensureUserDirsOnDisk env uname ui
      let ui ← desktopRefreshFromPath env (buildUserDesktopPath uname ui)
      startDesktopSession env { ui with login := { ui.login with active := false } } : DiskM Ui)
        (Device.healthy sectors) = some (ui', device') := by
  rcases ready.ensureUserDirs uname with ⟨sectors1, created, ready1⟩
  have named : DiskReady env (buildUserDesktopPath uname ui) sectors1 := ready1
  rcases named.desktopRefresh with ⟨shown, sectors2, refreshed, ready2⟩
  rw [DiskM.bind_run created, DiskM.bind_run refreshed]
  exact DiskReady.startSession ready2

/-- On such a disk every login attempt comes to an end. -/
theorem loginAttempt_returns :
    ∃ ui' device', loginAttempt env ui (Device.healthy sectors) = some (ui', device') := by
  rw [loginAttempt]
  dsimp only
  split
  · apply DiskReady.enter
    exact ready
  · exact ⟨_, _, rfl⟩

end

/-! ## The selected account -/

/-- `login_attempt` checks the selected account just if the first account of its name has the
same password; where the disk can be used it returns. -/
theorem loginAttempt_checksSelected_iff {content : List UInt8} {selected : Nat}
    (inside : selected < (userParseLines content.length [] content).length) :
    (ChecksSelected (userParseLines content.length [] content) selected ↔
        FirstAlike (userParseLines content.length [] content) selected) ∧
      ∀ (env : Env) (ui : Ui) (sectors : Nat → Buffer), DiskReady env ui sectors →
        ∃ ui' device', loginAttempt env ui (Device.healthy sectors) = some (ui', device') := by
  generalize userParseLines content.length [] content = users at inside ⊢
  refine ⟨?_, fun env ui sectors ready => loginAttempt_returns ready⟩
  rcases find_name (accountAt_mem inside) with ⟨first, found⟩
  have alike : FirstAlike users selected ↔ first.pass = (accountAt users selected).pass := by
    rw [FirstAlike, found, Option.map_some, Option.some.injEq]
  rw [alike]
  constructor
  · intro checks
    -- the password of the selected account, typed on a machine without a disk
    let env : Env := ⟨true, 640, 480, 8, 16, false, false, 0⟩
    let ui : Ui := { Ui.initial blankVol with
      login := ⟨true, selected, none, true, (accountAt users selected).pass, [], users⟩ }
    have choosing : Choosing users selected ui := ⟨rfl, rfl, rfl⟩
    have ready : DiskReady env ui (fun _ _ => 0) := fun mounted =>
      absurd mounted Bool.false_ne_true
    rcases loginAttempt_returns ready with ⟨ui', device', ran⟩
    have ends := (checks env ui ui' _ device' choosing ran).mpr rfl
    exact ((loginAttempt_ends_iff choosing inside found ran).mp ends).symm
  · intro same env ui ui' device device' choosing ran
    rw [loginAttempt_ends_iff choosing inside found ran, same]

/-- Two accounts of the same name and password. -/
theorem loginAttempt_checksSelected_iff_twice :
    let users := userParseLines 12 [] (ascii "bob:1\nbob:1\n")
    ChecksSelected users 1 := by
  have inside : 1 < (userParseLines (ascii "bob:1\nbob:1\n").length []
      (ascii "bob:1\nbob:1\n")).length := by decide +kernel
  exact (loginAttempt_checksSelected_iff inside).1.mpr (by decide +kernel)

/-- Two names that are the same in their first 15 characters: the second account cannot be
entered with its own password, but with that of the first. -/
theorem loginAttempt_checks_first :
    let content := ascii "christopher-smith:1\nchristopher-smithson:2\n"
    let users := userParseLines content.length [] content
    let entered := fun pw => (loginAttempt ⟨true, 640, 480, 8, 16, false, false, 0⟩
      { Ui.initial blankVol with login := ⟨true, 1, none, true, pw, [], users⟩ }
      (Device.healthy fun _ _ => 0)).map fun run => !run.1.login.active
    (accountAt users 1).pass = ascii "2" ∧ entered (ascii "2") = some false ∧
      entered (ascii "1") = some true := by
  decide +kernel

end ParanOS

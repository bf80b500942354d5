import ParanOS.Fat.Lost
import ParanOS.Filed
import ParanOS.Kernel.UserStore

/-! # Accounts after a disk error

`ensure_user_store` takes a file that it cannot read for one that is not there, and writes the
default accounts in its place. Which calls it makes up to the content of the file is settled by
those before, so the accounts are safe if all of them succeed.
-/

namespace ParanOS

open Foundation

/-! ## The accounts that can log in -/

/-- The accounts that the lines of a file give. -/
def listedAccounts (content : List UInt8) : List User :=
  (content.splitOn 0x0A).filterMap lineAccount

/-- The users after a start in which the file could be read: what the parser takes from up to
511 characters, which end at a zero, or the default ones. -/
def startUsers (content : List UInt8) : List User :=
  let users := (takenAccounts ((content.take 511).takeWhile (· ≠ 0))).map Given.user
  if users = [] then defaultUsers else users

/-- Each account that is the first of its name after such a start is one of the file. -/
def OwnAccounts (content : List UInt8) : Prop :=
  ∀ user ∈ startUsers content,
    (startUsers content).find? (fun other => other.name == user.name) = some user →
      user ∈ listedAccounts content

instance (content : List UInt8) : Decidable (OwnAccounts content) :=
  inferInstanceAs (Decidable (∀ user ∈ startUsers content, _ → _))

/-- An account can log in if it is the first of its name. -/
theorem userVerify_iff {users : List User} {name pw : List UInt8} :
    userVerify users name pw = true ↔
      users.find? (fun user => user.name == name) = some ⟨name, pw⟩ := by
  rw [userVerify]
  cases found : users.find? fun user => user.name == name with
  | none => simp
  | some user =>
      rcases user with ⟨other, pass⟩
      have named := List.find?_some found
      simp only [beq_iff_eq] at named
      subst named
      simp

theorem logins_iff {users given : List User} :
    (∀ name pw, userVerify users name pw = true → ⟨name, pw⟩ ∈ given) ↔
      ∀ user ∈ users, users.find? (fun other => other.name == user.name) = some user →
        user ∈ given := by
  constructor
  · intro logins user _ first
    exact logins user.name user.pass (userVerify_iff.mpr first)
  · intro own name pw verified
    have first := userVerify_iff.mp verified
    exact own _ (List.mem_of_find?_eq_some first) first

theorem withUsers_start (content : List UInt8) (ui : Ui) :
    (withUsers ((content.take 511).takeWhile (· ≠ 0)) ui).login.users = startUsers content := by
  have length : ((content.take 511).takeWhile (· ≠ 0)).length ≤ 511 :=
    Nat.le_trans (List.takeWhile_prefix _).length_le (by simp)
  have parsed := userParseLines_taken ((content.take 511).takeWhile (· ≠ 0))
  rw [List.take_of_length_le length] at parsed
  rw [startUsers, ← parsed]
  rfl

/-! ## The calls up to the content of the file -/

theorem Ui.withVol_causal {α : Type} {call : Vol → DiskM (Vol × α)} (calls : ∀ v, Causal (call v))
    (ui : Ui) : Causal (ui.withVol call) :=
  .bind (calls ui.vol) fun _ => .pure _

theorem Ui.ensureDir_causal (ui : Ui) (env : Env) (path : List UInt8) :
    Causal (ui.ensureDir env path) :=
  ui.withVol_causal fun v => fat32EnsureDirPath_causal v env.fuel _

theorem ensureUserDirsOnDisk_causal (env : Env) (uname : List UInt8) (ui : Ui) :
    Causal (ensureUserDirsOnDisk env uname ui) :=
  .ite (.pure _) (.foldlM (fun ui dir => .bind (ui.ensureDir_causal env dir) fun _ => .pure _) _ _)

theorem readUserFile_causal (env : Env) (ui : Ui) : Causal (readUserFile env ui) := by
  apply Causal.bind
  · exact .bind (ensureUserDirsOnDisk_causal env _ _) fun ui =>
      .bind (ensureUserDirsOnDisk_causal env _ ui) fun ui =>
      .bind (ui.ensureDir_causal env _) fun _ => .pure _
  · exact fun ui => ui.withVol_causal fun v => fat32ReadFilePath_causal v env.fuel _ _

section

variable {env : Env} {path : CString} {first : Nat} {content : List UInt8} {ui : Ui}
  {sectors : Nat → Buffer} (filed : Filed env.fuel sectors path first content ui.vol)
include filed

theorem Filed.uiEnsureDir {dir : List UInt8}
    (names : ∀ comp ∈ (CString.ofArray dir).componentsLong, ShortName comp) :
    ∃ ui' code sectors', ui.ensureDir env dir (Device.healthy sectors) =
        some ((ui', code), Device.healthy sectors') ∧
      Filed env.fuel sectors' path first content ui'.vol := by
  rcases filed.ensureDir names with ⟨v', code, sectors', ran, filed'⟩
  exact ⟨{ ui with vol := v' }, code, sectors', DiskM.bind_run ran, filed'⟩

theorem Filed.ensureUserDirsOnDisk {uname : List UInt8}
    (known : uname ∈ [ascii "ADMIN", ascii "GUEST"]) :
    ∃ ui' sectors', ParanOS.ensureUserDirsOnDisk env uname ui (Device.healthy sectors) =
        some (ui', Device.healthy sectors') ∧
      Filed env.fuel sectors' path first content ui'.vol := by
  have names : ∀ uname ∈ [ascii "ADMIN", ascii "GUEST"], ∀ dir ∈ [pathBaseDir, pathUsersDir,
      pathWallDir, userDir uname, userDir uname ++ ascii "/DESKTOP",
      userDir uname ++ ascii "/PROGRAMS"], ∀ comp ∈ (CString.ofArray dir).componentsLong,
      ShortName comp := by
    decide +kernel
  rw [ParanOS.ensureUserDirsOnDisk]
  split
  · exact ⟨ui, sectors, rfl, filed⟩
  · apply @foldlM_healthy Ui _ _ fun ui sectors => Filed env.fuel sectors path first content ui.vol
    · intro dir member ui sectors filed
      rcases filed.uiEnsureDir (names uname known dir member) with
        ⟨ui', code, sectors', ran, filed'⟩
      exact ⟨ui', sectors', DiskM.bind_run ran, filed'⟩
    · exact filed

theorem Filed.ensureStoreDirs :
    ∃ ui' sectors', ParanOS.ensureStoreDirs env ui (Device.healthy sectors) =
        some (ui', Device.healthy sectors') ∧
      Filed env.fuel sectors' path first content ui'.vol := by
  rcases filed.ensureUserDirsOnDisk (show ascii "ADMIN" ∈ _ by simp) with
    ⟨ui1, sectors1, admin, filed1⟩
  rcases filed1.ensureUserDirsOnDisk (show ascii "GUEST" ∈ _ by simp) with
    ⟨ui2, sectors2, guest, filed2⟩
  have names : ∀ comp ∈ (CString.ofArray pathWallDir).componentsLong, ShortName comp := by
    decide +kernel
  rcases filed2.uiEnsureDir names with ⟨ui', code, sectors', wallpaper, filed'⟩
  exact ⟨ui', sectors', (DiskM.bind_run admin).trans ((DiskM.bind_run guest).trans
    (DiskM.bind_run wallpaper)), filed'⟩

end

/-- If no call fails, the file is still there and is read. -/
theorem Filed.readUserFile {env : Env} {first : Nat} {content : List UInt8} {ui : Ui}
    {sectors : Nat → Buffer}
    (filed : Filed env.fuel sectors (.ofArray userFile) first content ui.vol) :
    ∃ ui' sectors', ParanOS.readUserFile env ui (Device.healthy sectors) =
        some ((ui', fileRead first content 511), Device.healthy sectors') ∧
      Filed env.fuel sectors' (.ofArray userFile) first content ui'.vol := by
  have reset : Filed env.fuel sectors (.ofArray userFile) first content (resetLogin ui).vol := filed
  rcases reset.ensureStoreDirs with ⟨ui1, sectors', dirs, filed1⟩
  rcases filed1.read (show 511 ≤ 0xFFFFFFFF by decide) with ⟨v', read, filed'⟩
  exact ⟨{ ui1 with vol := v' }, sectors',
    (DiskM.bind_run dirs).trans (DiskM.bind_run read), filed'⟩

/-! ## After the start -/

/-- The start leaves what can be read of the user file, and nobody can log in but with an account
of the file. -/
def KeepsAccounts (env : Env) (ui : Ui) (content : List UInt8) (device : Device) : Prop :=
  ∃ ui' device', ensureUserStore env ui device = some (ui', device') ∧
    (∀ maxBytes ≤ 0xFFFFFFFF,
      contentAt ui'.vol env.fuel (.ofArray userFile) device'.sectors maxBytes =
        contentAt ui.vol env.fuel (.ofArray userFile) device.sectors maxBytes) ∧
    ∀ name pw, userVerify ui'.login.users name pw = true → ⟨name, pw⟩ ∈ listedAccounts content

/-- A file that is not read is taken for one that is missing, whatever is on the disk. -/
theorem ensureUserStore_unread {env : Env} {ui ui1 ui2 ui' : Ui}
    {device device1 device2 device' : Device} {result : ReadResult} (mounted : ui.volMounted = true)
    (dirs : ensureStoreDirs env (resetLogin ui) device = some (ui1, device1))
    (read : ui1.readFile env userFile 511 device1 = some ((ui2, result), device2))
    (failed : result.code ≠ 0) (ran : ensureUserStore env ui device = some (ui', device')) :
    ui'.login.users = defaultUsers := by
  rcases DiskM.of_bind dirs with ⟨uiA, deviceA, admin, rest⟩
  rcases DiskM.of_bind rest with ⟨uiB, deviceB, guest, rest⟩
  rcases DiskM.of_bind rest with ⟨⟨uiC, code⟩, deviceC, wallpaper, ended⟩
  simp only [DiskM.pure_apply, Option.some.injEq, Prod.mk.injEq] at ended
  rcases ended with ⟨rfl, rfl⟩
  unfold ensureUserStore at ran
  dsimp only at ran
  rw [if_neg (by simp [mounted])] at ran
  have further := (((DiskM.bind_run admin).trans ((DiskM.bind_run guest).trans
    ((DiskM.bind_run wallpaper).trans (DiskM.bind_run read)))).symm.trans ran)
  simp only [if_neg failed] at further
  rcases DiskM.of_bind further with ⟨⟨ui3, code'⟩, device3, _, ended⟩
  have parsed : (if userParseLines (ascii "admin:1234\nguest:\n").length []
        (ascii "admin:1234\nguest:\n") = [] then defaultUsers
      else userParseLines (ascii "admin:1234\nguest:\n").length []
        (ascii "admin:1234\nguest:\n")) = defaultUsers := by
    decide
  rw [← (Prod.mk.inj (Option.some.inj ended)).1]
  exact parsed

theorem default_logins : userVerify defaultUsers (ascii "admin") (ascii "1234") = true := by
  decide

section

variable {env : Env} {ui : Ui} {content : List UInt8} {device device' : Device} {ui' : Ui}
  {result : ReadResult} (mounted : ui.volMounted = true)
  (ran : readUserFile env ui device = some ((ui', result), device'))
include mounted ran

/-- If the file is not read, no account is kept but those that the default ones agree with. -/
theorem KeepsAccounts.default_listed (kept : KeepsAccounts env ui content device)
    (failed : result.code ≠ 0) : ⟨ascii "admin", ascii "1234"⟩ ∈ listedAccounts content := by
  rcases kept with ⟨ui2, device2, started, _, logins⟩
  rcases DiskM.of_bind ran with ⟨ui1, device1, dirs, read⟩
  apply logins
  rw [ensureUserStore_unread mounted dirs read failed started]
  exact default_logins

end

/-- The disk of `desktopDisk` with the account `bob` in the user file. -/
def bobDisk : Nat → Buffer := userDisk (ascii "bob:secret\n")

/-- The volume on that disk. -/
def bobVol : Vol := { smallVol with totSec32 := 64 }

def bobEnv : Env := { sampleEnv with fuel := 65 }

/-- Who holds the clusters of the volume. -/
def bobOwners : List (Owner × List Nat) :=
  [(none, [2]), (some ⟨2, 0, 0⟩, [3]), (some ⟨3, 0, 0⟩, [4]), (some ⟨3, 0, 32⟩, [5]),
    (some ⟨4, 0, 0⟩, [6]), (some ⟨4, 0, 32⟩, [7]), (some ⟨6, 0, 0⟩, [8]), (some ⟨6, 0, 32⟩, [9]),
    (some ⟨7, 0, 0⟩, [10]), (some ⟨7, 0, 32⟩, [11]), (some ⟨8, 0, 0⟩, [12]),
    (some ⟨4, 0, 64⟩, [13])]

theorem bobVol_mounted : userUi.vol = bobVol := by decide

theorem bobDisk_wellFormed : WellFormed bobVol bobDisk := by
  have geometry : Geometry bobVol bobVol.clusterLimit := by
    refine ⟨by decide, by decide, by decide, ?_, by decide, by decide⟩
    intro clus below
    have bound : clus < 64 := below
    have first : 4 * clus / 512 = 0 := by omega
    simp only [bobVol, smallVol, Vol.heapLba, first]
    omega
  have held : ∀ pair ∈ bobOwners,
      pair.2 = [ownerStart bobVol (view bobVol bobVol.clusterLimit bobDisk) pair.1] ∧
        2 ≤ ownerStart bobVol (view bobVol bobVol.clusterLimit bobDisk) pair.1 ∧
        ownerStart bobVol (view bobVol bobVol.clusterLimit bobDisk) pair.1 < 64 ∧
        EndOfChain ((view bobVol bobVol.clusterLimit bobDisk).next
          (ownerStart bobVol (view bobVol bobVol.clusterLimit bobDisk) pair.1)) := by
    decide
  have lists : ∀ pair ∈ bobOwners, pair.1.all (fun slot =>
        direntIsDir (entryAt (view bobVol bobVol.clusterLimit bobDisk) slot)) = true →
      ∀ slot ∈ chainSlots bobVol pair.2,
        Listed (entryAt (view bobVol bobVol.clusterLimit bobDisk) slot) →
          some slot ∈ bobOwners.map Prod.fst := by
    decide
  refine ⟨⟨rfl, rfl, by decide, by decide, by decide, geometry⟩, @Census.owned _ _ _ bobOwners ?_⟩
  constructor
  · decide
  · decide
  · intro pair member
    rcases held pair member with ⟨single, lower, upper, ends⟩
    have running : ¬ EndOfChain (ownerStart bobVol (view bobVol bobVol.clusterLimit bobDisk)
        pair.1) := by
      rw [endOfChain_iff]
      omega
    rw [single]
    refine .chain (by omega) running (.single running ends) ?_
    intro cl inside
    rw [List.mem_singleton.mp inside]
    exact ⟨lower, upper⟩
  · intro pair member isDir
    have occupied : ownerStart bobVol (view bobVol bobVol.clusterLimit bobDisk) pair.1 ≠ 0 := by
      have lower := (held pair member).2.1
      omega
    refine ⟨occupied, lists pair member ?_⟩
    rcases pair with ⟨owner, chain⟩
    cases owner with
    | none => rfl
    | some slot => exact isDir
  · have apart : ∀ pair ∈ bobOwners, ∀ pair' ∈ bobOwners, pair.1 ≠ pair'.1 →
        ∀ cl ∈ pair.2, cl ∉ pair'.2 := by
      decide
    intro pair member pair' member' different cl inside inside'
    exact apart pair member pair' member' different cl inside inside'

theorem bobDisk_filed :
    Filed bobEnv.fuel bobDisk (.ofArray userFile) 13 (ascii "bob:secret\n") userUi.vol := by
  rw [bobVol_mounted]
  have comps : (CString.ofArray userFile).components83 =
      [ascii "PARANOS", ascii "USERS", ascii "USERS.TXT"] := by
    decide
  have dirs : Matched (makeName83 (ascii "PARANOS"))
        (entryAt (view bobVol bobVol.clusterLimit bobDisk) ⟨2, 0, 0⟩) ∧
      direntIsDir (entryAt (view bobVol bobVol.clusterLimit bobDisk) ⟨2, 0, 0⟩) = true ∧
      enterDir bobVol (direntStartCluster (entryAt (view bobVol bobVol.clusterLimit bobDisk)
        ⟨2, 0, 0⟩)) = 3 ∧
      Matched (makeName83 (ascii "USERS"))
        (entryAt (view bobVol bobVol.clusterLimit bobDisk) ⟨3, 0, 0⟩) ∧
      direntIsDir (entryAt (view bobVol bobVol.clusterLimit bobDisk) ⟨3, 0, 0⟩) = true ∧
      enterDir bobVol (direntStartCluster (entryAt (view bobVol bobVol.clusterLimit bobDisk)
        ⟨3, 0, 0⟩)) = 4 := by
    decide
  have file : (∀ other ∈ [(⟨4, 0, 0⟩ : Slot), ⟨4, 0, 32⟩],
        (entryAt (view bobVol bobVol.clusterLimit bobDisk) other) 0 ≠ 0x00 ∧
          ¬ Matched (makeName83 (ascii "USERS.TXT"))
            (entryAt (view bobVol bobVol.clusterLimit bobDisk) other)) ∧
      Matched (makeName83 (ascii "USERS.TXT"))
        (entryAt (view bobVol bobVol.clusterLimit bobDisk) ⟨4, 0, 64⟩) ∧
      direntIsDir (entryAt (view bobVol bobVol.clusterLimit bobDisk) ⟨4, 0, 64⟩) = false ∧
      direntStartCluster (entryAt (view bobVol bobVol.clusterLimit bobDisk) ⟨4, 0, 64⟩) = 13 ∧
      (ascii "bob:secret\n").length =
        (entryAt (view bobVol bobVol.clusterLimit bobDisk) ⟨4, 0, 64⟩).getU32 28 ∧
      ascii "bob:secret\n" <+: chainData bobVol (view bobVol bobVol.clusterLimit bobDisk) [13] := by
    decide +kernel
  have single : ∀ cl ∈ [2, 3, 4, 13],
      Linked (view bobVol bobVol.clusterLimit bobDisk).next EndOfChain cl [cl] := by
    have facts : ∀ cl ∈ [2, 3, 4, 13], ¬ EndOfChain cl ∧
        EndOfChain ((view bobVol bobVol.clusterLimit bobDisk).next cl) := by
      decide
    exact fun cl member => .single (facts cl member).1 (facts cl member).2
  rcases dirs with ⟨paranos, paranosDir, paranosStart, users, usersDir, usersStart⟩
  rcases file with ⟨before, usersTxt, notDir, start, size, stored⟩
  refine .fat32 (by decide) ⟨bobDisk_wellFormed, ⟨4, 0, 64⟩, [13], ?_, notDir, start, ?_, size,
    stored⟩
  · rw [comps]
    refine .step (single 2 (by simp)) ⟨[], _, rfl, by simp, paranos⟩ paranosDir (by simp) ?_
    rw [paranosStart]
    refine .step (single 3 (by simp)) ⟨[], _, rfl, by simp, users⟩ usersDir (by simp) ?_
    rw [usersStart]
    exact .last (single 4 (by simp)) ⟨[⟨4, 0, 0⟩, ⟨4, 0, 32⟩], _, rfl, before, usersTxt⟩
  · refine .chain (by decide) (by decide) (single 13 (by simp)) ?_
    intro cl member
    rw [List.mem_singleton.mp member]
    exact ⟨by decide, by decide⟩

end ParanOS

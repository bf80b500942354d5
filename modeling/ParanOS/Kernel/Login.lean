import ParanOS.Fat.Mount
import ParanOS.Kernel.Invariant

/-! # The lock of the login screen

While the login screen is shown, keys still go through the block that comes
first in the loop, and Delete in it acts on the desktop behind the screen. All
other input leaves the disk alone until a login succeeds.
-/

namespace ParanOS

open Foundation

/-- Delete would go to a file that is selected on the desktop. -/
def deletesDesktopFile (input : Input) (ui : Ui) : Bool :=
  input.scancode == some 0x53 && ui.desktopSelected.any fun item => !item.isDir

/-! ## Handlers that write nothing -/

theorem listDir_readOnly (ui : Ui) (env : Env) (path : List UInt8) (maxItems : Int) :
    ReadOnly (ui.listDir env path maxItems) :=
  .bind (fat32ListDirPath_readOnly _ _ _ _) fun _ => .pure _

theorem launchToggle_readOnly (env : Env) (shown : Bool) (ui : Ui) :
    ReadOnly (launchToggle env shown ui) := by
  have refreshed : ReadOnly (launchRefreshItems env ui) :=
    .ite (.pure _) (.bind (listDir_readOnly ui env _ _) fun _ => .pure _)
  exact .ite (.bind refreshed fun _ => .pure _) (.pure _)

theorem desktopDeleteSelection_readOnly (env : Env) {ui : Ui}
    (spared : (ui.desktopSelected.any fun item => !item.isDir) = false) :
    desktopDeleteSelection env ui = pure ui := by
  unfold desktopDeleteSelection
  cases selected : ui.desktopSelected with
  | none => rfl
  | some item =>
      rw [selected] at spared
      have dir : item.isDir = true := by simpa using spared
      exact if_pos dir

/-- The first block writes nothing unless its Delete does. -/
theorem firstKeys_readOnly (env : Env) {input : Input} {ui : Ui}
    (deletes : input.scancode = some 0x53 → ReadOnly (deleteKey env ui)) :
    ReadOnly (firstKeys env input ui) := by
  unfold firstKeys
  cases scancode : input.scancode with
  | none => exact .pure _
  | some sc =>
      apply ReadOnly.ite (.pure _)
      apply ReadOnly.ite (.pure _)
      apply ReadOnly.ite (.bind (launchToggle_readOnly env _ _) fun _ => .pure _)
      apply ReadOnly.ite (.pure _)
      apply ReadOnly.ite (.pure _)
      apply ReadOnly.ite (.pure _)
      by_cases delete : sc = 0x53
      · rw [if_pos delete]
        exact .bind (deletes (by rw [scancode, delete])) fun _ => .pure _
      · rw [if_neg delete]
        exact .ite (.pure _) (.pure _)

/-! ## The login screen -/

/-- The login screen is still shown. -/
def Locked (ui : Ui) : Prop := ui.login.active = true

theorem LoginOnly.locked {ui ui' : Ui} (only : LoginOnly ui ui') (locked : Locked ui') :
    Locked ui := by
  rcases only.entered with inactive | ⟨same, _⟩
  · rw [Locked, inactive] at locked
    exact absurd locked Bool.false_ne_true
  · exact same.symm.trans locked

theorem loginAttempt_readOnly (env : Env) (ui : Ui) :
    ReadOnlyWhen Locked (loginAttempt env ui) := by
  cases succeeds : loginSucceeds ui with
  | true =>
      refine .of_excluded ((loginAttempt_only env ui).mono fun ui' attempted locked => ?_)
      rw [Locked, attempted.2, succeeds, Bool.not_true, Bool.and_false] at locked
      exact Bool.false_ne_true locked
  | false =>
      have wrong : ¬ userVerify (loginUser ui).2
          ((loginUser ui).2.getD (loginUser ui).1 ⟨[], []⟩).name ui.login.pw = true :=
        Bool.eq_false_iff.mp succeeds
      have ends : ∃ ui', loginAttempt env ui = pure ui' := ⟨_, if_neg wrong⟩
      rcases ends with ⟨ui', ends⟩
      rw [ends]
      exact .of_readOnly (.pure _)

theorem loginClick_readOnly (env : Env) (input : Input) (ui : Ui) :
    ReadOnlyWhen Locked (loginClick env input ui) := by
  have unchanged : ∀ ui : Ui, ReadOnlyWhen Locked (pure ui : DiskM Ui) :=
    fun ui => .of_readOnly (.pure _)
  exact .ite (unchanged _) (.ite (loginAttempt_readOnly env _) (unchanged _))

theorem loginKeys_readOnly (env : Env) (input : Input) (sc : Option UInt8) (ui : Ui) :
    ReadOnlyWhen Locked (loginKeys env input sc ui) := by
  have unchanged : ∀ ui : Ui, ReadOnlyWhen Locked (pure ui : DiskM Ui) :=
    fun ui => .of_readOnly (.pure _)
  cases sc with
  | none => exact unchanged _
  | some key =>
      have typed : ReadOnlyWhen Locked (loginKey env key (keepButtons input ui)) :=
        .ite (loginAttempt_readOnly env _) (.ite (unchanged _) (.ite (unchanged _) (unchanged _)))
      exact .ite typed (unchanged _)

theorem loginScreen_readOnly (env : Env) (input : Input) (sc : Option UInt8) (ui : Ui) :
    ReadOnlyWhen Locked (loginScreen env input sc ui) := by
  rw [loginScreen_eq]
  apply ReadOnlyWhen.ite (.of_readOnly (.pure _))
  apply ReadOnlyWhen.ite
  · apply ReadOnlyWhen.bind (loginClick_readOnly env input _) fun ui' =>
      loginKeys_readOnly env input sc ui'
    intro ui'
    exact (loginKeys_only env input sc ui').mono fun _ only => only.locked
  · exact loginKeys_readOnly env input sc _

/-! ## Runs behind the lock -/

/-- No login succeeds in this iteration: only `login_attempt` takes the login
screen away. -/
def NoLogin (_ : Machine) (_ : Input) (next : Machine) : Prop := Locked next.ui

/-- No login succeeds, and Delete is not pressed while a file is selected on the
desktop. -/
def SparesDesktop (current : Machine) (input : Input) (next : Machine) : Prop :=
  Locked next.ui ∧ deletesDesktopFile input current.ui = false

/-- The sectors are the same and no write call was made. -/
def DiskUntouched (first last : Device) : Prop :=
  last.sectors = first.sectors ∧ last.writeFaults = first.writeFaults

theorem DiskUntouched.trans {first second third : Device} (before : DiskUntouched first second)
    (after : DiskUntouched second third) : DiskUntouched first third :=
  ⟨after.1.trans before.1, after.2.trans before.2⟩

theorem iteration_untouched {env : Env} {current next : Machine} {input : Input}
    (sound : UiSound current.ui) (locked : Locked current.ui)
    (stepped : current.Step env input next) (spares : SparesDesktop current input next) :
    DiskUntouched current.device next.device := by
  have deletes : input.scancode = some 0x53 → ReadOnly (deleteKey env current.ui) := by
    intro delete
    have closed := sound.locked locked
    have spared : (current.ui.desktopSelected.any fun item => !item.isDir) = false := by
      have found := spares.2
      simp only [deletesDesktopFile, delete, beq_self_eq_true, Bool.true_and] at found
      exact found
    rw [deleteKey, if_neg (by rw [closed]; exact Bool.false_ne_true),
      desktopDeleteSelection_readOnly env spared]
    exact .pure _
  rcases DiskM.of_bind stepped with ⟨⟨sc, ui⟩, middle, keysRan, screenRan⟩
  have pressed := firstKeys_readOnly env deletes _ _ _ keysRan
  have still : ui.login = current.ui.login := (firstKeys_login env input current.ui).returns keysRan
  have active : ui.login.active = true := by rw [still]; exact locked
  dsimp only at screenRan
  rw [if_pos active] at screenRan
  exact DiskUntouched.trans pressed
    ((loginScreen_readOnly env input sc ui).returns screenRan spares.1)

/-- From any reachable state with the login screen, the disk stays as it is as
long as no login succeeds and Delete is not pressed with a file selected on the
desktop behind the screen. -/
theorem loginLock_untouched {env : Env} {first last : Machine} {inputs : List Input}
    (reachable : Reachable env first) (locked : Locked first.ui)
    (run : Run env SparesDesktop first inputs last) :
    DiskUntouched first.device last.device := by
  let invariant := fun machine : Machine =>
    UiSound machine.ui ∧ Locked machine.ui ∧ DiskUntouched first.device machine.device
  have start : invariant first := ⟨reachable.sound, locked, rfl, rfl⟩
  have step : ∀ {current input next}, current.Step env input next →
      SparesDesktop current input next → invariant current → invariant next := by
    intro current input next stepped spares holds
    rcases holds with ⟨sound, stillLocked, untouched⟩
    exact ⟨(iteration_sound env input sound).returns stepped, spares.1,
      untouched.trans (iteration_untouched sound stillLocked stepped spares)⟩
  exact (run.keeps invariant step start).2.2

/-! ## A disk with a file on the desktop -/

/-- An entry of a FAT32 directory with a small first cluster and size. -/
def direntBytes (name : String) (attr startClus size : UInt8) : List UInt8 :=
  ascii name ++ [attr] ++ List.replicate 14 0 ++ [startClus, 0, size, 0, 0, 0]

/-- A FAT32 disk with the directories of both users, the user list in cluster 13
and the file `A.TXT` on the desktop of `ADMIN`. -/
def desktopDisk : Nat → Buffer := fun lba =>
  match lba with
  | 0 => Buffer.ofList (List.replicate 12 0 ++ [2, 1, 1, 0, 1] ++ List.replicate 15 0 ++
      [64, 0, 0, 0, 1] ++ List.replicate 7 0 ++ [2])
  | 1 => Buffer.ofList (List.replicate 56 0xFF)
  | 2 => Buffer.ofList (direntBytes "PARANOS    " 0x10 3 0)
  | 3 => Buffer.ofList (direntBytes "USERS      " 0x10 4 0 ++ direntBytes "WALLPAPR   " 0x10 5 0)
  | 4 => Buffer.ofList (direntBytes "ADMIN      " 0x10 6 0 ++ direntBytes "GUEST      " 0x10 7 0 ++
      direntBytes "USERS   TXT" 0x20 13 18)
  | 6 => Buffer.ofList (direntBytes "DESKTOP    " 0x10 8 0 ++ direntBytes "PROGRAMS   " 0x10 9 0)
  | 7 => Buffer.ofList (direntBytes "DESKTOP    " 0x10 10 0 ++ direntBytes "PROGRAMS   " 0x10 11 0)
  | 8 => Buffer.ofList (direntBytes "A       TXT" 0x20 12 1)
  | 12 => Buffer.ofList [0x41]
  | 13 => Buffer.ofList (ascii "admin:1234\nguest:\n")
  | _ => fun _ => 0

/-- A screen of 640 by 480, a font of 8 by 16, a disk and no sound. -/
def sampleEnv : Env := ⟨true, 640, 480, 8, 16, true, false, 16⟩

/-- An iteration with a key and no mouse button. -/
def keyInput (sc : UInt8) : Input := ⟨some sc, 0, 0, false, false, false, 0, false, true⟩

/-- The machine before and after an iteration, which comes after others from the
start of the kernel with that disk. -/
def sampleRun (inputs : List Input) (input : Input) : Option (Machine × Machine) :=
  (boot sampleEnv blankVol (Device.healthy desktopDisk)).bind fun booted =>
    (runLoop sampleEnv inputs booted.1 booted.2).bind fun current =>
      (iteration sampleEnv input current.1 current.2).map fun next =>
        (⟨current.1, current.2⟩, ⟨next.1, next.2⟩)

theorem sampleRun_reachable {inputs : List Input} {input : Input} {current next : Machine}
    (ran : sampleRun inputs input = some (current, next)) :
    Reachable sampleEnv current ∧ current.Step sampleEnv input next := by
  rcases Option.bind_eq_some_iff.mp ran with ⟨⟨bootUi, bootDevice⟩, booted, loopRan⟩
  rcases Option.bind_eq_some_iff.mp loopRan with ⟨⟨ui, device⟩, looped, stepRan⟩
  rcases Option.map_eq_some_iff.mp stepRan with ⟨⟨nextUi, nextDevice⟩, stepped, same⟩
  simp only [Prod.mk.injEq] at same
  rcases same with ⟨rfl, rfl⟩
  exact ⟨(Reachable.booted booted).later (.of_runLoop looped), stepped⟩

/-- An iteration that typed a character at the login screen left the disk
alone. -/
theorem loginLock_untouched_typing :
    ∃ first last, Reachable sampleEnv first ∧ Locked first.ui ∧
      Run sampleEnv SparesDesktop first [keyInput 0x1E] last ∧
      DiskUntouched first.device last.device := by
  have observed : (sampleRun [] (keyInput 0x1E)).map (fun run => (run.1.ui.login.active,
      run.2.ui.login.active, deletesDesktopFile (keyInput 0x1E) run.1.ui)) =
        some (true, true, false) := by
    decide +kernel
  rcases Option.map_eq_some_iff.mp observed with ⟨⟨current, next⟩, ran, same⟩
  rcases sampleRun_reachable ran with ⟨reachable, stepped⟩
  simp only [Prod.mk.injEq] at same
  have run : Run sampleEnv SparesDesktop current [keyInput 0x1E] next :=
    .cons stepped ⟨same.2.1, same.2.2⟩ (.nil _)
  exact ⟨current, next, reachable, same.1, run, loginLock_untouched reachable same.1 run⟩

/-- Down and Delete on the login screen empty the first file of the desktop. -/
theorem loginLock_deletes :
    ¬ ∀ (env : Env) (first last : Machine) (inputs : List Input), Reachable env first →
      Locked first.ui → Run env NoLogin first inputs last →
      DiskUntouched first.device last.device := by
  intro claim
  have observed : (sampleRun [keyInput 0x50] (keyInput 0x53)).map (fun run =>
      ((run.1.ui.login.active, run.2.ui.login.active),
        run.1.device.sectors 8 28, run.2.device.sectors 8 28)) = some ((true, true), 1, 0) := by
    decide +kernel
  rcases Option.map_eq_some_iff.mp observed with ⟨⟨current, next⟩, ran, same⟩
  rcases sampleRun_reachable ran with ⟨reachable, stepped⟩
  simp only [Prod.mk.injEq] at same
  have run : Run sampleEnv NoLogin current [keyInput 0x53] next :=
    .cons stepped same.1.2 (.nil _)
  have untouched := claim sampleEnv current next _ reachable same.1.1 run
  have kept : next.device.sectors 8 28 = current.device.sectors 8 28 := by rw [untouched.1]
  rw [same.2.1, same.2.2] at kept
  exact absurd kept (by decide)

end ParanOS

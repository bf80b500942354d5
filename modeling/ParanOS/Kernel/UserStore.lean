import ParanOS.Kernel.Login
import ParanOS.Kernel.UserFile

/-! # Where the accounts of the user list come from

`ensure_user_store` reads 511 bytes of the user file, and the parser takes lines in
pieces of 63 characters. An account is right when it comes from the first piece of
its line and the piece shows all of it that is kept; no other piece may look like
an account.
-/

namespace ParanOS

open Foundation

/-! ## Accounts with their places -/

/-- An account with the line and the piece of the line that it comes from. -/
structure Given where
  line : Nat
  piece : Nat
  user : User
  deriving DecidableEq

/-- The accounts of lines, or of pieces of one line, each with its number. -/
def accountsOf (mark : Nat → User → Given) : Nat → List (List UInt8) → List Given
  | _, [] => []
  | number, line :: rest =>
      ((lineAccount line).map (mark number)).toList ++ accountsOf mark (number + 1) rest

/-- The accounts that the pieces of a line give. -/
def pieceAccounts (index : Nat) (line : List UInt8) : List Given :=
  accountsOf (Given.mk index) 0 (linePieces 63 line)

/-- The account that a line gives. -/
def wholeAccount (index : Nat) (line : List UInt8) : List Given :=
  ((lineAccount line).map (Given.mk index 0)).toList

def pieceAccountsFrom (index : Nat) : List (List UInt8) → List Given
  | [] => []
  | line :: rest => pieceAccounts index line ++ pieceAccountsFrom (index + 1) rest

/-- The accounts that the parser takes from what it is shown of a file. -/
def takenAccounts (content : List UInt8) : List Given :=
  (pieceAccountsFrom 0 ((content.take 511).splitOn 0x0A)).take maxUsers

/-- The accounts of the lines of a file. -/
def givenAccounts (content : List UInt8) : List Given :=
  (accountsOf (fun index => Given.mk index 0) 0 (content.splitOn 0x0A)).take maxUsers

@[simp] theorem pieceAccounts_nil (index : Nat) : pieceAccounts index [] = [] := by
  rw [pieceAccounts, linePieces_nil]
  rfl

theorem accountsOf_users {mark : Nat → User → Given}
    (users : ∀ number user, (mark number user).user = user) (number : Nat)
    (lines : List (List UInt8)) :
    (accountsOf mark number lines).map Given.user = lines.filterMap lineAccount := by
  induction lines generalizing number with
  | nil => rfl
  | cons line rest induction =>
      rw [accountsOf, List.map_append, induction]
      cases found : lineAccount line with
      | none =>
          rw [List.filterMap_cons_none found]
          rfl
      | some user =>
          rw [List.filterMap_cons_some found, Option.map_some, Option.toList_some,
            List.map_singleton, users]
          rfl

theorem mem_accountsOf {mark : Nat → User → Given} {number : Nat} {lines : List (List UInt8)}
    {given : Given} (member : given ∈ accountsOf mark number lines) :
    ∃ place user, number ≤ place ∧ given = mark place user := by
  induction lines generalizing number with
  | nil => cases member
  | cons line rest induction =>
      rcases List.mem_append.mp member with here | later
      · cases found : lineAccount line with
        | none =>
            rw [found] at here
            cases here
        | some user =>
            rw [found] at here
            exact ⟨number, user, Nat.le_refl number, List.mem_singleton.mp here⟩
      · rcases induction later with ⟨place, user, behind, equal⟩
        exact ⟨place, user, Nat.le_of_succ_le behind, equal⟩

theorem accountsOf_eq_nil {mark : Nat → User → Given} {number : Nat} {lines : List (List UInt8)} :
    accountsOf mark number lines = [] ↔ ∀ line ∈ lines, ¬ HasAccount line := by
  induction lines generalizing number with
  | nil => simp [accountsOf]
  | cons line rest induction =>
      rw [accountsOf, List.append_eq_nil_iff, induction, List.forall_mem_cons]
      apply and_congr_left
      intro _
      by_cases has : HasAccount line
      · simp [lineAccount_of has, has]
      · simp [lineAccount_none has, has]

theorem pieceAccountsFrom_users (index : Nat) (lines : List (List UInt8)) :
    (pieceAccountsFrom index lines).map Given.user =
      (lines.flatMap (linePieces 63)).filterMap lineAccount := by
  induction lines generalizing index with
  | nil => rfl
  | cons line rest induction =>
      rw [pieceAccountsFrom, List.map_append, pieceAccounts, accountsOf_users fun _ _ => rfl,
        induction, List.flatMap_cons, List.filterMap_append]

theorem mem_pieceAccountsFrom {index : Nat} {lines : List (List UInt8)} {given : Given}
    (member : given ∈ pieceAccountsFrom index lines) : index ≤ given.line := by
  induction lines generalizing index with
  | nil => cases member
  | cons line rest induction =>
      rcases List.mem_append.mp member with here | later
      · rcases mem_accountsOf here with ⟨_, _, _, rfl⟩
        exact Nat.le_refl index
      · exact Nat.le_of_succ_le (induction later)

/-- What the parser makes of the beginning of a file. -/
theorem userParseLines_taken (content : List UInt8) :
    userParseLines (content.take 511).length [] (content.take 511) =
      (takenAccounts content).map Given.user := by
  rw [userParseLines_accounts, takenAccounts, List.map_take, pieceAccountsFrom_users]

theorem fileAccounts_given (content : List UInt8) :
    fileAccounts content = if (givenAccounts content).map Given.user = [] then defaultUsers
      else (givenAccounts content).map Given.user := by
  rw [fileAccounts, givenAccounts, List.map_take, accountsOf_users fun _ _ => rfl]

/-! ## What is seen of a line -/

/-- The name, the colon and what is kept of the password are in the first piece that
is seen of the line. -/
def HeadSeen (shown : Nat) (line : List UInt8) : Prop :=
  min ((line.takeWhile (· ≠ 0x3A)).length + 32) line.length ≤ min 63 shown

/-- No other piece that is seen of the line looks like an account. -/
def TailBare (shown : Nat) (line : List UInt8) : Prop :=
  ∀ piece ∈ (linePieces 63 (line.take shown)).tail, ¬ HasAccount piece

/-- A line of which so many characters are seen is taken for what it is, as long as there
is room for its account, or for one more. -/
structure LineIntact (room shown : Nat) (line : List UInt8) : Prop where
  head : HasAccount line → 0 < room → HeadSeen shown line
  tail : (wholeAccount 0 line).length < room → TailBare shown line

theorem wholeAccount_length (index : Nat) (line : List UInt8) :
    (wholeAccount index line).length = (wholeAccount 0 line).length := by
  rw [wholeAccount, wholeAccount]
  cases lineAccount line <;> rfl

theorem wholeAccount_length_le (index : Nat) (line : List UInt8) :
    (wholeAccount index line).length ≤ 1 := by
  rw [wholeAccount]
  cases lineAccount line with
  | none => exact Nat.zero_le 1
  | some _ => exact Nat.le_refl 1

theorem mem_wholeAccount {index : Nat} {line : List UInt8} {given : Given}
    (member : given ∈ wholeAccount index line) : given.line = index ∧ given.piece = 0 := by
  rw [wholeAccount, Option.mem_toList, Option.map_eq_some_iff] at member
  rcases member with ⟨_, _, rfl⟩
  exact ⟨rfl, rfl⟩

theorem wholeAccount_inj {index : Nat} {line line' : List UInt8} :
    wholeAccount index line = wholeAccount index line' ↔ lineAccount line = lineAccount line' := by
  rw [wholeAccount, wholeAccount]
  cases lineAccount line <;> cases lineAccount line' <;> simp

/-- The first characters of a line give its account just if they show all of it. -/
theorem lineAccount_take_iff (line : List UInt8) (seen : Nat) :
    lineAccount (line.take seen) = lineAccount line ↔
      (HasAccount line →
        min ((line.takeWhile (· ≠ 0x3A)).length + 32) line.length ≤ seen) := by
  by_cases colon : 0x3A ∈ line
  · rcases List.eq_append_cons_of_mem colon with ⟨before, after, rfl, outside⟩
    have passes : ∀ char ∈ before, decide (char ≠ 0x3A) = true := by
      intro char member
      exact decide_eq_true fun equal => outside (equal ▸ member)
    have length : ((before ++ 0x3A :: after).takeWhile (· ≠ 0x3A)).length = before.length := by
      rw [List.takeWhile_append_of_pos passes]
      simp
    rw [length, List.length_append, List.length_cons]
    by_cases has : HasAccount (before ++ 0x3A :: after)
    · by_cases reached : before.length < seen
      · have cut : (before ++ 0x3A :: after).take seen =
            before ++ 0x3A :: after.take (seen - (before.length + 1)) := by
          rw [List.take_append, List.take_of_length_le (by omega),
            show seen - before.length = (seen - (before.length + 1)) + 1 by omega,
            List.take_succ_cons]
        rw [cut, lineAccount_of has, lineAccount_of ((hasAccount_colon outside _).mp has),
          lineUser, lineUser, lineName_colon outside, lineName_colon outside,
          linePass_colon outside, linePass_colon outside]
        simp only [Option.some.injEq, User.mk.injEq, true_and, copyInto, has, true_implies,
          List.take_take]
        constructor
        · intro same
          have lengths := congrArg List.length same
          rw [List.length_take, List.length_take] at lengths
          omega
        · intro enough
          by_cases short : after.length ≤ seen - (before.length + 1)
          · rw [List.take_eq_take_iff]
            omega
          · rw [Nat.min_eq_left (by omega)]
      · have cut : (before ++ 0x3A :: after).take seen = before.take seen :=
          List.take_append_of_le_length (by omega)
        have none : ¬ HasAccount (before.take seen) :=
          fun found => outside (List.mem_of_mem_take found.1)
        rw [cut, lineAccount_none none, lineAccount_of has]
        simp only [reduceCtorEq, has, true_implies, false_iff]
        omega
    · refine iff_of_true ?_ fun found => absurd found has
      rw [lineAccount_none has, lineAccount_none]
      intro found
      by_cases reached : before.length < seen
      · rw [List.take_append, List.take_of_length_le (by omega),
          show seen - before.length = (seen - (before.length + 1)) + 1 by omega,
          List.take_succ_cons] at found
        exact has ((hasAccount_colon outside after).mp found)
      · rw [List.take_append_of_le_length (by omega)] at found
        exact outside (List.mem_of_mem_take found.1)
  · have none : ¬ HasAccount line := fun has => colon has.1
    have none' : ¬ HasAccount (line.take seen) :=
      fun has => colon (List.mem_of_mem_take has.1)
    refine iff_of_true ?_ fun has => absurd has none
    rw [lineAccount_none none, lineAccount_none none']

/-- A line gives its account, and nothing else, just if it is intact. -/
theorem pieceAccounts_take_iff (index room shown : Nat) (line : List UInt8) :
    (pieceAccounts index (line.take shown)).take room = (wholeAccount index line).take room ↔
      LineIntact room shown line := by
  by_cases full : room = 0
  · subst full
    exact iff_of_true rfl ⟨fun _ none => absurd none (Nat.lt_irrefl 0), fun none => by omega⟩
  have positive : 0 < room := Nat.pos_of_ne_zero full
  -- the first piece and the pieces behind it
  have parts : pieceAccounts index (line.take shown) =
      wholeAccount index ((line.take shown).take 63) ++
        accountsOf (Given.mk index) 1 (linePieces 63 (line.take shown)).tail := by
    by_cases nothing : line.take shown = []
    · rw [nothing, pieceAccounts_nil, linePieces_nil]
      rfl
    · rw [pieceAccounts, linePieces_cons (by decide) nothing]
      rfl
  have first : ∀ given ∈ wholeAccount index ((line.take shown).take 63), given.piece = 0 :=
    fun given member => (mem_wholeAccount member).2
  have first' : ∀ given ∈ wholeAccount index line, given.piece = 0 :=
    fun given member => (mem_wholeAccount member).2
  have behind : ∀ given ∈ accountsOf (Given.mk index) 1 (linePieces 63 (line.take shown)).tail,
      given.piece ≠ 0 := by
    intro given member
    rcases mem_accountsOf member with ⟨place, _, later, rfl⟩
    exact Nat.pos_iff_ne_zero.mp later
  have key := take_append_eq_iff_of_key Given.piece 0 first first' behind
    (fun given (member : given ∈ ([] : List Given)) => absurd member List.not_mem_nil) room
  have heads : (wholeAccount index ((line.take shown).take 63)).take room =
      (wholeAccount index line).take room ↔ (HasAccount line → HeadSeen shown line) := by
    rw [List.take_of_length_le (Nat.le_trans (wholeAccount_length_le _ _) positive),
      List.take_of_length_le (Nat.le_trans (wholeAccount_length_le _ _) positive), List.take_take,
      wholeAccount_inj, lineAccount_take_iff]
    rfl
  rw [parts, ← List.append_nil (wholeAccount index line), key, List.take_nil, heads,
    List.take_eq_nil_iff, accountsOf_eq_nil, wholeAccount_length index]
  constructor
  · intro agree
    refine ⟨fun has _ => agree.1 has, fun more => ?_⟩
    exact agree.2.resolve_left (by omega)
  · intro intact
    refine ⟨fun has => intact.head has positive, ?_⟩
    by_cases more : (wholeAccount 0 line).length < room
    · exact .inr (intact.tail more)
    · exact .inl (by omega)

/-! ## What is seen of a file -/

/-- A beginning of a text gives the accounts of what it shows of the lines. -/
theorem pieceAccountsFrom_take (text : List UInt8) (index shown : Nat) :
    pieceAccountsFrom index ((text.take shown).splitOn 0x0A) =
      pieceAccountsFrom index (visibleLines shown (text.splitOn 0x0A)) := by
  induction text using @linesInduction UInt8 _ 0x0A generalizing index shown with
  | last line outside =>
      have outside' : (0x0A : UInt8) ∉ line.take shown := fun member =>
        outside (List.mem_of_mem_take member)
      rw [List.splitOn_eq_singleton outside, List.splitOn_eq_singleton outside']
      rfl
  | next line rest outside induction =>
      rw [List.splitOn_append_cons_self_of_not_mem outside, visibleLines]
      by_cases inside : shown ≤ line.length
      · have outside' : (0x0A : UInt8) ∉ line.take shown := fun member =>
          outside (List.mem_of_mem_take member)
        have hidden : ∀ (lines : List (List UInt8)) (index : Nat),
            pieceAccountsFrom index (List.replicate lines.length []) = [] := by
          intro lines
          induction lines with
          | nil => exact fun _ => rfl
          | cons _ tail none =>
              intro index
              rw [List.length_cons, List.replicate_succ, pieceAccountsFrom, pieceAccounts_nil,
                none (index + 1), List.append_nil]
        rw [List.take_append_of_le_length inside, List.splitOn_eq_singleton outside',
          Nat.sub_eq_zero_of_le (Nat.le_succ_of_le inside), visibleLines_zero, pieceAccountsFrom,
          pieceAccountsFrom, pieceAccountsFrom, hidden]
      · have cut : (line ++ 0x0A :: rest).take shown =
            line ++ 0x0A :: rest.take (shown - (line.length + 1)) := by
          rw [List.take_append, List.take_of_length_le (by omega),
            show shown - line.length = (shown - (line.length + 1)) + 1 by omega,
            List.take_succ_cons]
        rw [cut, List.splitOn_append_cons_self_of_not_mem outside, pieceAccountsFrom, induction,
          List.take_of_length_le (by omega), pieceAccountsFrom]

/-- Each line is intact, given how much of the text is seen and how many accounts there is
room for when it is reached. -/
def LinesIntact (room shown : Nat) (lines : List (List UInt8)) : Prop :=
  ∀ before line after, lines = before ++ line :: after →
    LineIntact (room - before.countP fun line => HasAccount line)
      (shown - (before.map fun line => line.length + 1).sum) line

theorem wholeAccount_length_eq (index : Nat) (line : List UInt8) :
    (wholeAccount index line).length = [line].countP fun line => HasAccount line := by
  by_cases has : HasAccount line
  · simp [wholeAccount, lineAccount_of has, has]
  · simp [wholeAccount, lineAccount_none has, has]

theorem linesIntact_cons {room shown : Nat} {line : List UInt8} {rest : List (List UInt8)} :
    LinesIntact room shown (line :: rest) ↔ LineIntact room shown line ∧
      LinesIntact (room - (wholeAccount 0 line).length) (shown - (line.length + 1)) rest := by
  constructor
  · intro intact
    refine ⟨intact [] line rest rfl, ?_⟩
    intro before other after split
    have later := intact (line :: before) other after (by rw [split]; rfl)
    rw [← List.singleton_append, List.countP_append, ← wholeAccount_length_eq 0, List.map_append,
      List.sum_append, List.map_singleton, List.sum_singleton, ← Nat.sub_sub,
      ← Nat.sub_sub] at later
    exact later
  · intro intact before other after split
    cases before with
    | nil =>
        rcases List.cons.inj split with ⟨rfl, _⟩
        exact intact.1
    | cons head before =>
        rcases List.cons.inj split with ⟨rfl, split'⟩
        have later := intact.2 before other after split'
        rw [← List.singleton_append, List.countP_append, ← wholeAccount_length_eq 0,
          List.map_append, List.sum_append, List.map_singleton, List.sum_singleton, ← Nat.sub_sub,
          ← Nat.sub_sub]
        exact later

theorem accounts_eq_iff (index room shown : Nat) (lines : List (List UInt8)) :
    (pieceAccountsFrom index (visibleLines shown lines)).take room =
        (accountsOf (fun index => Given.mk index 0) index lines).take room ↔
      LinesIntact room shown lines := by
  induction lines generalizing index room shown with
  | nil =>
      refine iff_of_true rfl ?_
      intro before line after split
      simp at split
  | cons line rest induction =>
      have here : ∀ given ∈ pieceAccounts index (line.take shown), given.line = index := by
        intro given member
        rcases mem_accountsOf member with ⟨_, _, _, rfl⟩
        rfl
      have here' : ∀ given ∈ wholeAccount index line, given.line = index :=
        fun given member => (mem_wholeAccount member).1
      have later : ∀ given ∈ pieceAccountsFrom (index + 1)
          (visibleLines (shown - (line.length + 1)) rest), given.line ≠ index := by
        intro given member
        have behind := mem_pieceAccountsFrom member
        omega
      have later' : ∀ given ∈ accountsOf (fun index => Given.mk index 0) (index + 1) rest,
          given.line ≠ index := by
        intro given member
        rcases mem_accountsOf member with ⟨place, _, behind, rfl⟩
        exact fun equal => by simp only at equal; omega
      have split : accountsOf (fun index => Given.mk index 0) index (line :: rest) =
          wholeAccount index line ++ accountsOf (fun index => Given.mk index 0) (index + 1) rest :=
            rfl
      rw [visibleLines, pieceAccountsFrom, split,
        take_append_eq_iff_of_key Given.line index here here' later later', pieceAccounts_take_iff,
        induction, linesIntact_cons, wholeAccount_length index]

/-- What the parser takes from a file are the accounts of its lines just if the lines are
intact, as far as 511 characters and eight accounts go. -/
theorem takenAccounts_eq_iff (content : List UInt8) :
    takenAccounts content = givenAccounts content ↔
      LinesIntact maxUsers 511 (content.splitOn 0x0A) := by
  rw [takenAccounts, givenAccounts, pieceAccountsFrom_take, accounts_eq_iff]


/-! ## The user list after the start -/

/-- The directories that `ensure_user_store` creates before it reads the file. -/
def ensureStoreDirs (env : Env) (ui : Ui) : DiskM Ui := do
  let ui ← ensureUserDirsOnDisk env (ascii "ADMIN") ui
  let ui ← ensureUserDirsOnDisk env (ascii "GUEST") ui
  let (ui, _) ← ui.ensureDir env pathWallDir
  pure ui

/-- `user_reset_list` and `login_reset_password`. -/
def resetLogin (ui : Ui) : Ui :=
  { ui with login := { ui.login with users := [], selected := 0, hover := none, pw := [] } }

/-- The file has been read. -/
theorem ensureUserStore_read {env : Env} {ui ui1 ui2 : Ui} {device device1 device2 : Device}
    {result : ReadResult} (mounted : ui.volMounted = true)
    (dirs : ensureStoreDirs env (resetLogin ui) device = some (ui1, device1))
    (read : ui1.readFile env userFile 511 device1 = some ((ui2, result), device2))
    (succeeded : result.code = 0) :
    ensureUserStore env ui device =
      some (withUsers (result.out.takeWhile (· ≠ 0)) ui2, device2) := by
  rcases DiskM.of_bind dirs with ⟨uiA, deviceA, admin, rest⟩
  rcases DiskM.of_bind rest with ⟨uiB, deviceB, guest, rest⟩
  rcases DiskM.of_bind rest with ⟨⟨uiC, code⟩, deviceC, wallpaper, ended⟩
  simp only [DiskM.pure_apply, Option.some.injEq, Prod.mk.injEq] at ended
  rcases ended with ⟨rfl, rfl⟩
  unfold ensureUserStore
  dsimp only
  rw [if_neg (by simp [mounted])]
  refine (DiskM.bind_run admin).trans ((DiskM.bind_run guest).trans
    ((DiskM.bind_run wallpaper).trans ((DiskM.bind_run read).trans ?_)))
  simp only [succeeded, if_true]
  rfl

/-- After a start in which the file could be read, the users are those the file gives, each
from its own line, just if every line that counts is seen whole. -/
theorem ensureUserStore_accounts_iff {env : Env} {ui ui1 ui2 : Ui}
    {device device1 device2 : Device} {content : List UInt8} (mounted : ui.volMounted = true)
    (nulFree : ∀ char ∈ content, char ≠ 0)
    (dirs : ensureStoreDirs env (resetLogin ui) device = some (ui1, device1))
    (read : ui1.readFile env userFile 511 device1 =
      some ((ui2, ⟨0, min content.length 511, content.take 511⟩), device2)) :
    ∃ ui', ensureUserStore env ui device = some (ui', device2) ∧
      ui'.login.users = (if (takenAccounts content).map Given.user = [] then defaultUsers
        else (takenAccounts content).map Given.user) ∧
      (ui'.login.users = fileAccounts content ∧ takenAccounts content = givenAccounts content ↔
        LinesIntact maxUsers 511 (content.splitOn 0x0A)) := by
  have whole : (content.take 511).takeWhile (· ≠ 0) = content.take 511 := by
    apply List.takeWhile_eq_self_iff.mpr
    intro char member
    simpa using nulFree char (List.mem_of_mem_take member)
  have ran := ensureUserStore_read mounted dirs read rfl
  dsimp only at ran
  rw [whole] at ran
  have users : (withUsers (content.take 511) ui2).login.users =
      if (takenAccounts content).map Given.user = [] then defaultUsers
        else (takenAccounts content).map Given.user := by
    rw [← userParseLines_taken]
    rfl
  refine ⟨_, ran, users, ?_⟩
  rw [users, fileAccounts_given, ← takenAccounts_eq_iff]
  constructor
  · exact fun right => right.2
  · intro same
    rw [same]
    exact ⟨rfl, rfl⟩

/-! ## A disk with a user file -/

/-- The disk of `desktopDisk` with this text of at most 255 characters in the user file. -/
def userDisk (content : List UInt8) : Nat → Buffer := fun lba =>
  match lba with
  | 4 => Buffer.ofList (direntBytes "ADMIN      " 0x10 6 0 ++ direntBytes "GUEST      " 0x10 7 0 ++
      direntBytes "USERS   TXT" 0x20 13 (UInt8.ofNat content.length))
  | 13 => Buffer.ofList content
  | lba => desktopDisk lba

/-- The interface with the volume of that disk mounted. -/
def userUi : Ui :=
  { Ui.initial (mountFat32 blankVol (desktopDisk 0) 0).2 with volMounted := true }

/-- The calls of `ensure_user_store` up to the one that reads the file. -/
def readUserFile (env : Env) (ui : Ui) : DiskM (Ui × ReadResult) := do
  let ui ← ensureStoreDirs env (resetLogin ui)
  ui.readFile env userFile 511

theorem readUserFile_split {env : Env} {ui : Ui} {device : Device} {result : ReadResult}
    (observed : (readUserFile env ui device).map (fun run => run.1.2) = some result) :
    ∃ ui1 ui2 device1 device2, ensureStoreDirs env (resetLogin ui) device = some (ui1, device1) ∧
      ui1.readFile env userFile 511 device1 = some ((ui2, result), device2) := by
  rcases Option.map_eq_some_iff.mp observed with ⟨⟨⟨ui2, read⟩, device2⟩, ran, same⟩
  rcases DiskM.of_bind ran with ⟨ui1, device1, dirs, rest⟩
  dsimp only at same
  subst same
  exact ⟨ui1, ui2, device1, device2, dirs, rest⟩

/-- The file of the default accounts. -/
theorem ensureUserStore_accounts_iff_default :
    ∃ ui' device', ensureUserStore sampleEnv userUi
        (Device.healthy (userDisk (ascii "admin:1234\nguest:\n"))) = some (ui', device') ∧
      ui'.login.users = fileAccounts (ascii "admin:1234\nguest:\n") := by
  have observed : (readUserFile sampleEnv userUi (Device.healthy (userDisk
      (ascii "admin:1234\nguest:\n")))).map (fun run => run.1.2) =
        some ⟨0, 18, ascii "admin:1234\nguest:\n"⟩ := by
    decide +kernel
  rcases readUserFile_split observed with ⟨_, _, _, device', dirs, read⟩
  have nulFree : ∀ char ∈ ascii "admin:1234\nguest:\n", char ≠ 0 := by
    decide +kernel
  rcases ensureUserStore_accounts_iff rfl nulFree dirs read with ⟨ui', stored, _, right⟩
  have intact := (takenAccounts_eq_iff (ascii "admin:1234\nguest:\n")).mp (by decide +kernel)
  exact ⟨ui', device', stored, (right.mpr intact).1⟩

/-- The end of a line of 67 characters becomes an account without a password, which the
file does not give. -/
theorem ensureUserStore_invents_account :
    let content := List.replicate 63 0x23 ++ ascii "eve:"
    (∀ char ∈ content, char ≠ 0) ∧
      (readUserFile sampleEnv userUi (Device.healthy (userDisk content))).map
        (fun run => run.1.2) = some ⟨0, content.length, content⟩ ∧
      (ensureUserStore sampleEnv userUi (Device.healthy (userDisk content))).map
          (fun run => run.1.login.users) = some [⟨ascii "eve", []⟩] ∧
      fileAccounts content = [⟨List.replicate 15 0x23, []⟩] := by
  decide +kernel

end ParanOS

import ParanOS.Foundation.Lines
import ParanOS.Kernel.Apps

/-! # The accounts in the user file

`user_parse_lines` reads lines of at most 63 characters: a longer line comes to it
in pieces, each of which it takes for a line. What it makes of a text is told from
the accounts of these pieces, and compared with the accounts of the lines.
-/

namespace ParanOS

open Foundation

/-! ## The account of a line -/

/-- The name in a line: what is before the first colon, without the spaces and
carriage returns at its end. -/
def lineName (line : List UInt8) : List UInt8 :=
  (line.takeWhile (· ≠ 0x3A)).rdropWhile fun char => char = 0x20 ∨ char = 0x0D

/-- What is behind the first colon. -/
def linePass (line : List UInt8) : List UInt8 := (line.dropWhile (· ≠ 0x3A)).drop 1

/-- The line has a colon, and a name before it. -/
def HasAccount (line : List UInt8) : Prop := 0x3A ∈ line ∧ lineName line ≠ []

instance : DecidablePred HasAccount := fun _ => inferInstanceAs (Decidable (_ ∧ _))

/-- The account as it fits into the entries of `g_users`. -/
def lineUser (line : List UInt8) : User :=
  ⟨copyInto 16 (lineName line), copyInto 32 (linePass line)⟩

def lineAccount (line : List UInt8) : Option User :=
  if HasAccount line then some (lineUser line) else none

/-- The accounts of a file: those of its lines, the first eight, or the default ones if
there are none. -/
def fileAccounts (content : List UInt8) : List User :=
  let users := ((content.splitOn 0x0A).filterMap lineAccount).take maxUsers
  if users = [] then defaultUsers else users

theorem lineAccount_of {line : List UInt8} (has : HasAccount line) :
    lineAccount line = some (lineUser line) := if_pos has

theorem lineAccount_none {line : List UInt8} (lacks : ¬ HasAccount line) :
    lineAccount line = none := if_neg lacks

theorem not_hasAccount_nil : ¬ HasAccount [] := fun has => absurd has.1 List.not_mem_nil

section

variable {before after : List UInt8} (outside : 0x3A ∉ before)
include outside

theorem lineName_colon :
    lineName (before ++ 0x3A :: after) =
      before.rdropWhile fun char => char = 0x20 ∨ char = 0x0D := by
  have passes : ∀ char ∈ before, decide (char ≠ 0x3A) = true := by
    intro char member
    exact decide_eq_true fun equal => outside (equal ▸ member)
  rw [lineName, List.takeWhile_append_of_pos passes]
  simp

theorem linePass_colon : linePass (before ++ 0x3A :: after) = after := by
  have passes : ∀ char ∈ before, decide (char ≠ 0x3A) = true := by
    intro char member
    exact decide_eq_true fun equal => outside (equal ▸ member)
  rw [linePass, List.dropWhile_append_of_pos passes]
  simp

/-- Whether a line has an account is decided by what is before the first colon. -/
theorem hasAccount_colon (after' : List UInt8) :
    HasAccount (before ++ 0x3A :: after) ↔ HasAccount (before ++ 0x3A :: after') := by
  have colon : ∀ rest : List UInt8, (0x3A : UInt8) ∈ before ++ 0x3A :: rest := by
    intro rest
    simp
  rw [HasAccount, HasAccount, lineName_colon outside, lineName_colon outside]
  exact and_congr_left fun _ => iff_of_true (colon after) (colon after')

end

/-! ## What the parser makes of a text -/

theorem userParseLine_eq {users : List User} (room : users.length ≤ maxUsers)
    (line : List UInt8) :
    userParseLine users line = (users ++ (lineAccount line).toList).take maxUsers := by
  by_cases colon : 0x3A ∈ line
  · by_cases named : lineName line = []
    · have none : ¬ HasAccount line := fun has => has.2 named
      have parsed : userParseLine users line = users := by
        rw [userParseLine, if_pos colon]
        exact if_pos named
      rw [parsed, lineAccount_none none, Option.toList_none, List.append_nil,
        List.take_of_length_le room]
    · have parsed : userParseLine users line = userAdd users (lineName line) (linePass line) := by
        rw [userParseLine, if_pos colon]
        exact if_neg named
      rw [parsed, lineAccount_of ⟨colon, named⟩, Option.toList_some, userAdd]
      split
      · next full =>
          rw [List.take_append_of_le_length (by omega), List.take_of_length_le room]
      · next free =>
          rw [List.take_of_length_le (by rw [List.length_append, List.length_singleton]; omega)]
          rfl
  · have none : ¬ HasAccount line := fun has => colon has.1
    rw [userParseLine, if_neg colon, lineAccount_none none, Option.toList_none, List.append_nil,
      List.take_of_length_le room]

theorem foldl_userParseLine {users : List User} (room : users.length ≤ maxUsers)
    (lines : List (List UInt8)) :
    lines.foldl userParseLine users = (users ++ lines.filterMap lineAccount).take maxUsers := by
  induction lines generalizing users with
  | nil =>
      rw [List.foldl_nil, List.filterMap_nil, List.append_nil, List.take_of_length_le room]
  | cons line rest induction =>
      have first := userParseLine_eq room line
      have room' : (userParseLine users line).length ≤ maxUsers := by
        rw [first, List.length_take]
        omega
      have joined : (line :: rest).filterMap lineAccount =
          (lineAccount line).toList ++ rest.filterMap lineAccount := by
        cases found : lineAccount line <;> simp [found]
      rw [List.foldl_cons, induction room', first, joined, ← List.append_assoc, List.take_append,
        @List.take_append _ (users ++ _), List.take_take, Nat.min_self]
      by_cases full : maxUsers ≤ (users ++ (lineAccount line).toList).length
      · rw [List.length_take, Nat.min_eq_left full, Nat.sub_eq_zero_of_le full, Nat.sub_self]
      · rw [List.length_take, Nat.min_eq_right (by omega)]

theorem userParseLines_nil (fuel : Nat) (users : List User) :
    userParseLines fuel users [] = users := by
  cases fuel with
  | zero => rfl
  | succ fuel => rfl

/-- A line is read in pieces, and the end of the line is skipped. -/
theorem userParseLines_line {fuel : Nat} {users : List User} {line tail : List UInt8}
    (outside : 0x0A ∉ line) (ends : tail = [] ∨ tail.head? = some 0x0A)
    (enough : (line ++ tail).length ≤ fuel) :
    ∃ left, (tail.drop 1).length ≤ left ∧ userParseLines fuel users (line ++ tail) =
      userParseLines left ((linePieces 63 line).foldl userParseLine users) (tail.drop 1) := by
  induction fuel generalizing users line with
  | zero =>
      have nothing : line ++ tail = [] := List.length_eq_zero_iff.mp (by omega)
      rcases List.append_eq_nil_iff.mp nothing with ⟨rfl, rfl⟩
      exact ⟨0, Nat.le_refl 0, rfl⟩
  | succ fuel induction =>
      have uncut : (line ++ tail).takeWhile (· ≠ 0x0A) = line := by
        have passes : ∀ char ∈ line, decide (char ≠ 0x0A) = true := by
          intro char member
          exact decide_eq_true fun equal => outside (equal ▸ member)
        rw [List.takeWhile_append_of_pos passes]
        cases tail with
        | nil => exact List.append_nil line
        | cons char rest =>
            have newline : char = 0x0A := by simpa using ends
            rw [newline]
            simp
      by_cases nothing : line ++ tail = []
      · rcases List.append_eq_nil_iff.mp nothing with ⟨rfl, rfl⟩
        exact ⟨0, Nat.le_refl 0, rfl⟩
      rw [List.length_append] at enough
      by_cases short : line.length ≤ 63
      · have read : userParseLines (fuel + 1) users (line ++ tail) =
            userParseLines fuel (userParseLine users line) (tail.drop 1) := by
          simp only [userParseLines, if_neg nothing, uncut, List.take_of_length_le short,
            List.drop_left]
          cases tail with
          | nil => rfl
          | cons char rest =>
              have newline : char = 0x0A := by simpa using ends
              rw [if_pos (by rw [newline]; rfl)]
        have parsed : userParseLine users line =
            (linePieces 63 line).foldl userParseLine users := by
          by_cases empty : line = []
          · rw [empty, linePieces_nil]
            rfl
          · rw [linePieces_short empty short]
            rfl
        refine ⟨fuel, ?_, by rw [read, parsed]⟩
        rw [List.length_drop]
        have some : 0 < (line ++ tail).length := List.length_pos_iff.mpr nothing
        rw [List.length_append] at some
        omega
      · have long : line ≠ [] := by
          intro empty
          rw [empty] at short
          exact short (by decide)
        have rest : (line ++ tail).drop 63 = line.drop 63 ++ tail :=
          List.drop_append_of_le_length (by omega)
        have inside : ¬ (line.drop 63 ++ tail).head? = Option.some 0x0A := by
          cases more : line.drop 63 with
          | nil =>
              have none := congrArg List.length more
              rw [List.length_drop, List.length_nil] at none
              omega
          | cons char others =>
              intro newline
              have member : char ∈ line := List.mem_of_mem_drop (by rw [more]; exact .head _)
              exact outside ((by simpa using newline : char = 0x0A) ▸ member)
        have read : userParseLines (fuel + 1) users (line ++ tail) =
            userParseLines fuel (userParseLine users (line.take 63)) (line.drop 63 ++ tail) := by
          have cut : (line.take 63).length = 63 := by
            rw [List.length_take]
            omega
          simp only [userParseLines, if_neg nothing, uncut, cut, rest, if_neg inside]
        have later := @induction (userParseLine users (line.take 63)) (line.drop 63)
          (fun member => outside (List.mem_of_mem_drop member))
          (by rw [List.length_append, List.length_drop]; omega)
        rw [read, linePieces_cons (by decide) long]
        exact later

/-- The pieces of its lines are what is taken from a text. -/
theorem userParseLines_pieces (text : List UInt8) {fuel : Nat} {users : List User}
    (enough : text.length ≤ fuel) :
    userParseLines fuel users text =
      ((text.splitOn 0x0A).flatMap (linePieces 63)).foldl userParseLine users := by
  induction text using @linesInduction UInt8 _ 0x0A generalizing fuel users with
  | last line outside =>
      rcases @userParseLines_line fuel users line [] outside (.inl rfl) (by simpa using enough) with
        ⟨left, _, read⟩
      rw [List.append_nil, List.drop_nil, userParseLines_nil] at read
      rw [read, List.splitOn_eq_singleton outside, List.flatMap_singleton]
  | next line rest outside induction =>
      rcases @userParseLines_line fuel users line (0x0A :: rest) outside (.inr rfl) enough with
        ⟨left, enough', read⟩
      rw [read, List.splitOn_append_cons_self_of_not_mem outside, List.flatMap_cons,
        List.foldl_append]
      exact induction enough'

/-- The accounts of the pieces, as many as there is room for. -/
theorem userParseLines_accounts (text : List UInt8) :
    userParseLines text.length [] text =
      (((text.splitOn 0x0A).flatMap (linePieces 63)).filterMap lineAccount).take maxUsers := by
  rw [userParseLines_pieces text (Nat.le_refl _), foldl_userParseLine (Nat.zero_le _)]
  rfl

/-! ## Line endings -/

/-- The text with every `\n` replaced by `\r\n`. -/
def withReturns (text : List UInt8) : List UInt8 :=
  text.flatMap fun char => if char = 0x0A then [0x0D, 0x0A] else [char]

theorem withReturns_line {line : List UInt8} (outside : 0x0A ∉ line) :
    withReturns line = line := by
  induction line with
  | nil => rfl
  | cons char rest induction =>
      have different : char ≠ 0x0A := fun equal => outside (equal ▸ List.mem_cons_self)
      have later := induction fun member => outside (List.mem_cons_of_mem char member)
      rw [withReturns, List.flatMap_cons, if_neg different]
      exact congrArg (char :: ·) later

/-- Every line but the last ends with `\r` now. -/
theorem splitOn_withReturns (text : List UInt8) :
    (withReturns text).splitOn 0x0A =
      (text.splitOn 0x0A).dropLast.map (· ++ [0x0D]) ++ [(text.splitOn 0x0A).getLastD []] := by
  induction text using @linesInduction UInt8 _ 0x0A with
  | last line outside =>
      rw [withReturns_line outside, List.splitOn_eq_singleton outside]
      rfl
  | next line rest outside induction =>
      have replaced : withReturns (line ++ 0x0A :: rest) =
          (line ++ [0x0D]) ++ 0x0A :: withReturns rest := by
        have first := withReturns_line outside
        rw [withReturns] at first ⊢
        rw [List.flatMap_append, first, List.flatMap_cons, if_pos rfl, List.append_assoc]
        rfl
      have outside' : (0x0A : UInt8) ∉ line ++ [0x0D] := by
        rw [List.mem_append, List.mem_singleton]
        exact fun member => member.elim outside (by decide)
      have more := List.splitOn_ne_nil (0x0A : UInt8) rest
      rw [replaced, List.splitOn_append_cons_self_of_not_mem outside', induction,
        List.splitOn_append_cons_self_of_not_mem outside, List.dropLast_cons_of_ne_nil more,
        List.map_cons, List.cons_append]
      cases lines : rest.splitOn 0x0A with
      | nil => exact absurd lines more
      | cons head tail => rfl

/-- Lines that fit are their own pieces. -/
theorem accounts_of_short {lines : List (List UInt8)} (short : ∀ line ∈ lines, line.length ≤ 63) :
    (lines.flatMap (linePieces 63)).filterMap lineAccount =
      (lines.filter fun line => HasAccount line).map lineUser := by
  induction lines with
  | nil => rfl
  | cons line rest induction =>
      have later := induction fun other member => short other (List.mem_cons_of_mem line member)
      rw [List.flatMap_cons, List.filterMap_append, later]
      by_cases has : HasAccount line
      · have nonempty : line ≠ [] := fun empty => not_hasAccount_nil (empty ▸ has)
        rw [linePieces_short nonempty (short line List.mem_cons_self),
          List.filterMap_cons, lineAccount_of has, List.filter_cons, if_pos (decide_eq_true has)]
        rfl
      · have nothing : (linePieces 63 line).filterMap lineAccount = [] := by
          by_cases empty : line = []
          · rw [empty, linePieces_nil]
            rfl
          · rw [linePieces_short empty (short line List.mem_cons_self), List.filterMap_cons,
              lineAccount_none has]
            rfl
        rw [nothing, List.filter_cons, if_neg (by simpa using has), List.nil_append]

theorem hasAccount_return (line : List UInt8) : HasAccount (line ++ [0x0D]) ↔ HasAccount line := by
  by_cases colon : 0x3A ∈ line
  · rcases List.eq_append_cons_of_mem colon with ⟨before, after, rfl, outside⟩
    rw [List.append_assoc, List.cons_append]
    exact hasAccount_colon outside after
  · have colon' : (0x3A : UInt8) ∉ line ++ [0x0D] := by simpa using colon
    exact iff_of_false (fun has => colon' has.1) fun has => colon has.1

/-- The return becomes a part of the password, unless that fills its field already. -/
theorem lineUser_return {line : List UInt8} (has : HasAccount line) :
    (lineUser (line ++ [0x0D])).name = (lineUser line).name ∧
      (lineUser (line ++ [0x0D]) = lineUser line ↔ 31 ≤ (linePass line).length) := by
  rcases List.eq_append_cons_of_mem has.1 with ⟨before, after, rfl, outside⟩
  rw [List.append_assoc, List.cons_append, lineUser, lineUser, lineName_colon outside,
    lineName_colon outside, linePass_colon outside, linePass_colon outside]
  refine ⟨rfl, ?_⟩
  simp only [User.mk.injEq, true_and, copyInto]
  constructor
  · intro same
    have lengths := congrArg List.length same
    simp only [List.length_take, List.length_append, List.length_singleton] at lengths
    omega
  · intro full
    exact List.take_append_of_le_length full

/-- The lines with an account that end with `\n`. -/
def endedAccounts (text : List UInt8) : List (List UInt8) :=
  (text.splitOn 0x0A).dropLast.filter fun line => HasAccount line

/-- The account of the text behind the last `\n`. -/
def lastAccount (text : List UInt8) : List User :=
  ([(text.splitOn 0x0A).getLastD []].filter fun line => HasAccount line).map lineUser

theorem splitOn_parts (text : List UInt8) :
    text.splitOn 0x0A = (text.splitOn 0x0A).dropLast ++ [(text.splitOn 0x0A).getLastD []] := by
  have nonempty := List.splitOn_ne_nil (0x0A : UInt8) text
  rw [List.getLastD_eq_getLast?, List.getLast?_eq_some_getLast nonempty, Option.getD_some,
    List.dropLast_append_getLast]

theorem hasAccount_of_ended {text line : List UInt8} (member : line ∈ endedAccounts text) :
    HasAccount line := by
  simpa using (List.mem_filter.mp member).2

section

variable {text : List UInt8} (short : ∀ line ∈ text.splitOn 0x0A, line.length ≤ 62)
include short

theorem userParseLines_ended :
    userParseLines text.length [] text =
      ((endedAccounts text).map lineUser ++ lastAccount text).take maxUsers := by
  have read := userParseLines_accounts text
  rw [accounts_of_short fun line member => by have fits := short line member; omega] at read
  rw [read, endedAccounts, lastAccount, ← List.map_append, ← List.filter_append, ← splitOn_parts]

theorem userParseLines_withReturns :
    userParseLines (withReturns text).length [] (withReturns text) =
      ((endedAccounts text).map (fun line => lineUser (line ++ [0x0D])) ++
        lastAccount text).take maxUsers := by
  have fits : ∀ line ∈ (withReturns text).splitOn 0x0A, line.length ≤ 63 := by
    intro line member
    rw [splitOn_withReturns] at member
    rcases List.mem_append.mp member with ended | last
    · rcases List.mem_map.mp ended with ⟨source, inside, rfl⟩
      have fits := short source (List.dropLast_subset _ inside)
      rw [List.length_append, List.length_singleton]
      omega
    · have fits := short line (by rw [splitOn_parts]; exact List.mem_append_right _ last)
      omega
  have filtered : ((text.splitOn 0x0A).dropLast.map (· ++ [0x0D])).filter
      (fun line => HasAccount line) = (endedAccounts text).map (· ++ [0x0D]) := by
    rw [List.filter_map, endedAccounts]
    congr 2
    funext line
    exact decide_eq_decide.mpr (hasAccount_return line)
  rw [userParseLines_accounts, accounts_of_short fits, splitOn_withReturns, List.filter_append,
    filtered, List.map_append, List.map_map]
  rfl

end

/-- With `\r\n` at the ends of lines the names are the same, and the passwords just if
each of the lines that count and are ended has one of at least 31 characters. -/
theorem userParseLines_returns_iff {text : List UInt8}
    (short : ∀ line ∈ text.splitOn 0x0A, line.length ≤ 62) :
    (userParseLines (withReturns text).length [] (withReturns text)).map (·.name) =
        (userParseLines text.length [] text).map (·.name) ∧
      (userParseLines (withReturns text).length [] (withReturns text) =
            userParseLines text.length [] text ∧
          (∀ name pw,
            userVerify (userParseLines (withReturns text).length [] (withReturns text)) name pw =
              userVerify (userParseLines text.length [] text) name pw) ↔
        ∀ line ∈ (endedAccounts text).take maxUsers, 31 ≤ (linePass line).length) := by
  rw [userParseLines_ended short, userParseLines_withReturns short]
  have returned : ∀ line ∈ endedAccounts text,
      (lineUser (line ++ [0x0D])).name = (lineUser line).name ∧
        (lineUser (line ++ [0x0D]) = lineUser line ↔ 31 ≤ (linePass line).length) :=
    fun line member => lineUser_return (hasAccount_of_ended member)
  constructor
  · rw [List.map_take, List.map_take]
    congr 1
    rw [List.map_append, List.map_append, List.map_map, List.map_map]
    congr 1
    apply List.map_congr_left
    intro line member
    exact (returned line member).1
  · have heads : ((endedAccounts text).map (fun line => lineUser (line ++ [0x0D])) ++
          lastAccount text).take maxUsers =
        ((endedAccounts text).map lineUser ++ lastAccount text).take maxUsers ↔
        ∀ line ∈ (endedAccounts text).take maxUsers, lineUser (line ++ [0x0D]) = lineUser line := by
      rw [List.take_append, List.take_append, List.length_map, List.length_map,
        List.append_cancel_right_eq, ← List.map_take, ← List.map_take, List.map_inj_left]
    constructor
    · intro same line member
      exact (returned line (List.mem_of_mem_take member)).2.mp (heads.mp same.1 line member)
    · intro full
      have same := heads.mpr fun line member =>
        (returned line (List.mem_of_mem_take member)).2.mpr (full line member)
      rw [same]
      exact ⟨rfl, fun _ _ => rfl⟩

/-- A file of one account whose password fills its field. -/
theorem userParseLines_returns_iff_full :
    let text := ascii "bob:" ++ List.replicate 31 0x78 ++ [0x0A]
    userParseLines (withReturns text).length [] (withReturns text) =
      userParseLines text.length [] text := by
  have short : ∀ line ∈ (ascii "bob:" ++ List.replicate 31 0x78 ++ [0x0A]).splitOn 0x0A,
      line.length ≤ 62 := by decide +kernel
  exact ((userParseLines_returns_iff short).2.mpr (by decide +kernel)).1

/-- The file of the default accounts, prepared with `\r\n`: the password of `admin` is
not accepted any more. -/
theorem userParseLines_returns_differ :
    let text := ascii "admin:1234\nguest:\n"
    ¬ (userParseLines (withReturns text).length [] (withReturns text) =
      userParseLines text.length [] text) ∧
      userVerify (userParseLines text.length [] text) (ascii "admin") (ascii "1234") = true ∧
      userVerify (userParseLines (withReturns text).length [] (withReturns text)) (ascii "admin")
        (ascii "1234") = false := by
  decide +kernel

end ParanOS

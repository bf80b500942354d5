import Mathlib.Data.List.DropRight
import ParanOS.Fat.Path

/-! # Strings of the user interface

The string helpers of `kernel.c`. A string is the list of its characters before
the NUL; a function that fills an array gets the array's size and cuts off what
does not fit.
-/

namespace ParanOS

open Foundation

def ascii (text : String) : List UInt8 :=
  text.toList.map fun char => UInt8.ofNat char.toNat

/-- `strncpy` into an array of this size, with the NUL behind it. -/
def copyInto (size : Nat) (source : List UInt8) : List UInt8 := source.take (size - 1)

def upperCopy (size : Nat) (source : List UInt8) : List UInt8 :=
  (source.take (size - 1)).map toUpper

def pathJoin (size : Nat) (dir name : List UInt8) : List UInt8 :=
  let joined := dir.take (size - 1)
  let joined :=
    if joined ≠ [] ∧ joined.getLast? ≠ some 0x2F ∧ joined.length + 1 < size then
      joined ++ [0x2F]
    else joined
  joined ++ name.take (size - 1 - joined.length)

/-- The part of a path before its last slash; nothing if that is at the start. -/
def pathDirname (size : Nat) (fullpath : List UInt8) : List UInt8 :=
  ((fullpath.rdropWhile (· ≠ 0x2F)).dropLast).take (size - 1)

/-- The part of a path behind its last slash. -/
def pathBase (fullpath : List UInt8) : List UInt8 := fullpath.rtakeWhile (· ≠ 0x2F)

/-- Whether the name ends with the extension, in upper or lower case. -/
def strIeqExt (name ext : List UInt8) : Bool :=
  decide (ext ≠ [] ∧ 0x2E ∈ name ∧
    (name.rtakeWhile (· ≠ 0x2E)).map toUpper = ext.map toUpper)

/-- The loop of `sanitize_txt_name`: the name so far and whether it has a dot. -/
def sanitizeLoop (size : Nat) : List UInt8 → List UInt8 × Bool → List UInt8 × Bool
  | [], result => result
  | char :: rest, (out, hasDot) =>
      if out.length + 1 < size then
        if char = 0x2E then
          if hasDot then sanitizeLoop size rest (out, true)
          else sanitizeLoop size rest (out ++ [0x2E], true)
        else
          let char := toUpper (if char = 0x20 then 0x5F else char)
          if (0x41 ≤ char ∧ char ≤ 0x5A) ∨ (0x30 ≤ char ∧ char ≤ 0x39) ∨ char = 0x5F then
            sanitizeLoop size rest (out ++ [char], hasDot)
          else sanitizeLoop size rest (out, hasDot)
      else (out, hasDot)

def sanitizeTxtName (size : Nat) (source : List UInt8) : List UInt8 :=
  let (out, hasDot) := sanitizeLoop size source ([], false)
  if hasDot then out else out ++ (ascii ".TXT").take (size - 1 - out.length)

/-! ## Keys -/

def keyNormal : List UInt8 :=
  [0, 27] ++ ascii "1234567890-=" ++ [8, 9] ++ ascii "qwertyuiop[]" ++ [10, 0] ++
    ascii "asdfghjkl;'`" ++ [0] ++ ascii "\\zxcvbnm,./" ++ [0] ++ ascii "*" ++ [0] ++ ascii " "

def keyShift : List UInt8 :=
  [0, 27] ++ ascii "!@#$%^&*()_+" ++ [8, 9] ++ ascii "QWERTYUIOP\x7b\x7d" ++ [10, 0] ++
    ascii "ASDFGHJKL:\"~" ++ [0] ++ ascii "|ZXCVBNM<>?" ++ [0] ++ ascii "*" ++ [0] ++ ascii " "

/-- The character of a key press, 0 for none. -/
def keyToChar (capsOn : Bool) (shiftDown : Nat) (sc : UInt8) : UInt8 :=
  if 128 ≤ sc then 0
  else
    let norm := keyNormal.getD sc.toNat 0
    if 0x61 ≤ norm ∧ norm ≤ 0x7A then
      -- `g_caps_on ^ g_shift_down` counts the shift keys
      if (if capsOn then 1 else 0) ^^^ shiftDown ≠ 0 then norm - 32 else norm
    else if shiftDown ≠ 0 then keyShift.getD sc.toNat 0
    else norm

example : keyToChar false 1 0x1E = 0x41 ∧ keyToChar false 0 0x39 = 0x20 := by decide

end ParanOS

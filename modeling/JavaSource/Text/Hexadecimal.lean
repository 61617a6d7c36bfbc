import JavaSource.Text.Blank
import JavaSource.Text.Digit

/-!
# Hexadecimal numbers

A generous reader of hexadecimal numbers: white space around the number, a sign, a leading `0x`, one
underscore between two digits, and decimal digits of any script are all taken.
-/

namespace JavaSource.Text

def isNumberBlank (c : CodePoint) : Bool :=
  (9 ≤ c && c ≤ 13) || c == 32 || (127 ≤ c && isBlank c)

/-- The value of a hexadecimal digit; above ASCII only decimal digits count. -/
def hexDigitValue? (c : CodePoint) : Option Nat :=
  if 48 ≤ c && c ≤ 57 then some (c - 48)
  else if 97 ≤ c && c ≤ 102 then some (c - 87)
  else if 65 ≤ c && c ≤ 70 then some (c - 55)
  else if 127 ≤ c then decimalValue? c
  else none

/-- The value of a run of digits after `value`; single underscores may stand between digits. -/
def hexDigits? (value : Nat) : Text → Option Nat
  | [] => some value
  | c :: rest =>
    match hexDigitValue? c with
    | some d => hexDigits? (16 * value + d) rest
    | none =>
      if c == '_'.toNat then
        match rest with
        | d :: rest' => (hexDigitValue? d).bind fun v => hexDigits? (16 * value + v) rest'
        | [] => none
      else none

/-- An unsigned number, with or without `0x` before it and one underscore after that. -/
def hexMagnitude? (text : Text) : Option Nat :=
  let digits := match text with
    | z :: x :: rest =>
      if hexDigitValue? z == some 0 && (x == 'x'.toNat || x == 'X'.toNat) then
        match rest with
        | u :: rest' => if u == '_'.toNat then rest' else rest
        | [] => rest
      else text
    | _ => text
  match digits with
  | [] => none
  | c :: rest => (hexDigitValue? c).bind fun v => hexDigits? v rest

/-- A number, if the whole text is one. -/
def hexNumber? (text : Text) : Option Int :=
  let body := ((text.dropWhile isNumberBlank).reverse.dropWhile isNumberBlank).reverse
  match body with
  | c :: rest =>
    if c == '+'.toNat then (hexMagnitude? rest).map Int.ofNat
    else if c == '-'.toNat then (hexMagnitude? rest).map (- Int.ofNat ·)
    else (hexMagnitude? body).map Int.ofNat
  | [] => none

end JavaSource.Text

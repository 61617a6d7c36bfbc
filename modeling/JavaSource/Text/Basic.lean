/-!
# Text as code points

Source text is a list of code points. A `String` would not do: a Java escape such as `\ud800` stands
for a lone surrogate, which no `Char` is, and columns count code points.
-/

namespace JavaSource

/-- A code point, from U+0000 to U+10FFFF, surrogates included. -/
abbrev CodePoint := Nat

/-- A text is the list of its code points. -/
abbrev Text := List CodePoint

namespace Text

def ofString (s : String) : Text := s.toList.map Char.toNat

instance : Coe String Text := ⟨ofString⟩

def ofNat (n : Nat) : Text := (Nat.toDigits 10 n).map Char.toNat

def ofInt : Int → Text
  | .ofNat n => ofNat n
  | .negSucc n => '-'.toNat :: ofNat (n + 1)

def ofNatTwoDigits (n : Nat) : Text := if n < 10 then '0'.toNat :: ofNat n else ofNat n

def join (separator : Text) (parts : List Text) : Text := (parts.intersperse separator).flatten

def copies (n : Nat) (c : Char) : Text := List.replicate n c.toNat

def newline : CodePoint := 10

def isSurrogate (c : CodePoint) : Bool := 0xD800 ≤ c && c ≤ 0xDFFF

/-- Membership in a sorted list of closed ranges. -/
def inRanges : List (CodePoint × CodePoint) → CodePoint → Bool
  | [], _ => false
  | (lo, hi) :: rest, c => lo ≤ c && (c ≤ hi || inRanges rest c)

/-- The ranges of a table that is written in runs: how many code points after `start` are not in it, how many
after these are, and so on by turns. -/
def rangesFrom (start : CodePoint) : List Nat → List (CodePoint × CodePoint)
  | gap :: size :: rest => (start + gap, start + gap + size - 1) :: rangesFrom (start + gap + size) rest
  | _ => []

def oneOf (s : String) (c : CodePoint) : Bool := (ofString s).contains c

/-- The first place at which `part` starts in `text`, counted from the start of `text`. -/
def find? (part : Text) : Text → Option Nat
  | [] => if part.isEmpty then some 0 else none
  | c :: rest => if part.isPrefixOf (c :: rest) then some 0 else (find? part rest).map (· + 1)

/-- Whether the first text comes before the second in the order of code points, or is the same. -/
def isAtMost : Text → Text → Bool
  | [], _ => true
  | _ :: _, [] => false
  | c :: s, d :: t => c < d || (c == d && isAtMost s t)

def countNewlines (text : Text) : Nat := text.count newline

/-- The text after its last newline, if it holds one. -/
def afterLastNewline? (text : Text) : Option Text :=
  if text.contains newline then
    some (text.reverse.takeWhile (· != newline)).reverse
  else none

end Text

end JavaSource

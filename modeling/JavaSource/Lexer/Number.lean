import JavaSource.Lexer.Reading

/-!
# Numbers

Integer and floating point literals. Underscores may stand before a digit, and an `l` or `L` right
after the digits is taken along. Each reader looks at the text at its own digits, so a text that ends
there is a fault.
-/

namespace JavaSource.Lexer.Number

def isDecimal (c : CodePoint) : Bool := 48 ≤ c && c ≤ 57

def isHex (c : CodePoint) : Bool := isDecimal c || (97 ≤ c && c ≤ 102) || (65 ≤ c && c ≤ 70)

def isOctal (c : CodePoint) : Bool := 48 ≤ c && c ≤ 55

def isBinary (c : CodePoint) : Bool := c == 48 || c == 49

/-- Goes over digits and underscores. `taken` characters were read up to the last digit, and then
`underscores` more. Gives the number of characters up to the last digit, and the character that ended
the run, if one did. -/
def digitRun (isDigit : CodePoint → Bool) (taken underscores : Nat) :
    Text → Nat × Option CodePoint
  | [] => (taken, none)
  | c :: rest =>
    if isDigit c then digitRun isDigit (taken + underscores + 1) 0 rest
    else if c == '_'.toNat then digitRun isDigit taken (underscores + 1) rest
    else (taken, some c)

/-- The number of characters that the digits at the start of a text take. One more is taken if the run
is ended by `l` or `L`. -/
def digits (isDigit : CodePoint → Bool) (text : Text) : Except Fault Nat :=
  if text.isEmpty then .error .numberAtEnd
  else
    let (taken, stop) := digitRun isDigit 0 0 text
    .ok (if stop.any (Text.oneOf "lL") then taken + 1 else taken)

/-- Whether the character at `n` is one of those of `s`. -/
def isAt (text : Text) (n : Nat) (s : String) : Bool := text[n]?.any (Text.oneOf s)

/-- The end of a number of which `n` characters are read, after one more if it is one of `s`. -/
def optional (text : Text) (n : Nat) (s : String) : Nat := if isAt text n s then n + 1 else n

def digitsAt (isDigit : CodePoint → Bool) (text : Text) (n : Nat) : Except Fault Nat :=
  (digits isDigit (text.drop n)).map (n + ·)

def fraction (isDigit : CodePoint → Bool) (text : Text) (n : Nat) : Except Fault Nat :=
  if isAt text n "." then digitsAt isDigit text (n + 1) else .ok n

/-- The end of the sign, the digits and the type mark of an exponent that starts at `n`. -/
def exponentValue (text : Text) (n : Nat) : Except Fault Nat :=
  (digitsAt isDecimal text (optional text n "-+")).map (optional text · "fFdD")

def decimal (text : Text) : Except Fault (TokenClass × Nat) := do
  let n ← digits isDecimal text
  if !isAt text n ".eEfFdD" then
    return (.decimalInteger, n)
  let n ← fraction isDecimal text n
  let n ← if isAt text n "eE" then digitsAt isDecimal text (optional text (n + 1) "-+") else .ok n
  return (.decimalFloatingPoint, optional text n "fFdD")

def plain (number : Except Fault (TokenClass × Nat)) : Reading :=
  { outcome := number.map fun (cls, n) => .ofLength cls n }

/-- The rest of a hexadecimal floating point number after its mantissa. It should go on with `p`. -/
def hexExponent (text : Text) (n : Nat) : Reading :=
  let finish (n : Nat) := (exponentValue text n).map (Lexeme.ofLength .hexFloatingPoint)
  if isAt text n "pP" then { outcome := finish (n + 1) }
  else
    match text[n]? with
    | none => { outcome := .error .complaintPastEnd }
    | some c => { remarks := [⟨.invalidHexFloat, some c⟩], outcome := finish n }

def hex (text : Text) : Reading :=
  match digitsAt isHex text 2 with
  | .error f => { outcome := .error f }
  | .ok n =>
    if !isAt text n ".pP" then .plain .hexInteger n
    else
      match fraction isHex text n with
      | .error f => { outcome := .error f }
      | .ok n => hexExponent text n

/-- The number at the start of a text that starts with a digit. A lone zero at the end of the text is a
fault, since the character after a zero decides on the kind of number. -/
def read (text : Text) : Reading :=
  if text.head? == some '0'.toNat then
    if text.length == 1 then { outcome := .error .numberAtEnd }
    else if isAt text 1 "xX" then hex text
    else if isAt text 1 "bB" then plain ((digitsAt isBinary text 2).map (.binaryInteger, ·))
    else if isAt text 1 "01234567" then plain ((digitsAt isOctal text 1).map (.octalInteger, ·))
    else plain (decimal text)
  else plain (decimal text)

end JavaSource.Lexer.Number

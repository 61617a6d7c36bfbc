import JavaSource.Token.Basic

/-!
# Laying tokens out

Tokens written out again as text: a line for each statement, four blanks of indent for each open brace,
and blanks only where two words meet or an operator stands. A closing brace is written when the next
token is known.
-/

namespace JavaSource.Layout

structure State where
  indent : Int := 0
  closing : Bool := false
  afterWord : Bool := false

def State.margin (s : State) : Text := Text.copies s.indent.toNat ' '

/-- Writes the closing brace that waits, if one does, before the given token. -/
def writeClosing (s : State) (token : Token) : State × Text :=
  if s.closing then
    let s := { s with closing := false, indent := s.indent - 4 }
    let brace := Text.ofString "\n" ++ s.margin ++ Text.ofString "\x7d"
    (s, if token.cls.isWord then brace ++ Text.ofString "\n" ++ s.margin else brace)
  else (s, [])

/-- Writes one token after the closing brace that waited for it. -/
def writeToken (s : State) (token : Token) : State × Text :=
  if token.value == "\x7b" then
    let s := { s with indent := s.indent + 4 }
    (s, Text.ofString " \x7b\n" ++ s.margin)
  else if token.value == "\x7d" then ({ s with closing := true }, [])
  else if token.value == "," then (s, ", ")
  else if token.cls.isWord then
    (s, if s.afterWord then Text.ofString " " ++ token.value else token.value)
  else if token.cls.isA .operator then (s, Text.ofString " " ++ token.value ++ Text.ofString " ")
  else if token.value == ";" then (s, Text.ofString ";\n" ++ s.margin)
  else (s, token.value)

def write (s : State) : List Token → Text
  | [] => Text.ofString (if s.closing then "\n\x7d\n" else "\n")
  | token :: rest =>
    let (s, brace) := writeClosing s token
    let (s, body) := writeToken s token
    brace ++ body ++ write { s with afterWord := token.cls.isWord } rest

end JavaSource.Layout

namespace JavaSource

def reformat (tokens : List Token) : Text := Layout.write {} tokens

end JavaSource

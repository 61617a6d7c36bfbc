import JavaSource.Text.Blank

/-!
# What can go wrong while reading characters

A complaint is about the text: it names a reason, a character and a line. A fault is a failure of the
reading itself, where the text ends, or a code is out of reach, before a complaint can be made.
-/

namespace JavaSource.Lexer

inductive Reason where
  | unterminatedLiteral
  | illegalEscape
  | unterminatedComment
  | invalidHexFloat
  | invalidUnicodeEscape
  | unknownCharacter
  deriving DecidableEq, Repr

def Reason.text : Reason → Text
  | unterminatedLiteral => "Unterminated character/string literal"
  | illegalEscape => "Illegal escape character"
  | unterminatedComment => "Unterminated block comment"
  | invalidHexFloat => "Invalid hex float literal"
  | invalidUnicodeEscape => "Invalid unicode escape"
  | unknownCharacter => "Could not process token"

/-- A complaint about the text: what is wrong, next to which characters, and on which line. -/
structure Complaint where
  reason : Reason
  near : Text
  line : Nat
  excerpt : Text
  deriving DecidableEq, Repr

def Complaint.message (c : Complaint) : Text :=
  c.reason.text ++ Text.ofString " at \"" ++ c.near ++ Text.ofString "\", line " ++
    Text.ofNat c.line ++ Text.ofString ": " ++ c.excerpt

inductive Fault where
  /-- The text ends where a digit or the mark of a number is looked for. -/
  | numberAtEnd
  /-- A complaint is due at a place past the end of the text. -/
  | complaintPastEnd
  /-- An escape stands for a negative code. -/
  | negativeCode
  /-- An invalid escape is to be skipped and no earlier escape lends its code. -/
  | noEarlierCode
  /-- An invalid escape was met in a text that came as bytes. -/
  | invalidEscapeInBytes
  deriving DecidableEq, Repr

inductive Failure where
  | complaint (c : Complaint)
  | fault (f : Fault)
  deriving DecidableEq, Repr

/-- The line of `text` around the given offset, without white space at its ends. The line goes to the
next newline; where none follows, it goes to the last character but one. -/
def lineAround (text : Text) (offset : Nat) : Text :=
  let before := ((text.take offset).reverse.takeWhile (· != Text.newline)).reverse
  let after := text.drop offset
  let rest :=
    if after.contains Text.newline then before ++ after.takeWhile (· != Text.newline)
    else (before ++ after).dropLast
  Text.trim rest

end JavaSource.Lexer

import JavaSource.Lexer.Reading

/-!
# Character and string literals

A literal goes to the next quote of its own kind that no escape hides. After a backslash there must be
one of the known letters, a quote, a backslash, or an octal digit; up to three octal digits make one
escape if the first is at most three, and up to two otherwise.
-/

namespace JavaSource.Lexer.Quotation

/-- Where the reading of a literal stands between two characters. -/
inductive State where
  | plain
  | escape
  /-- After a first octal digit that two more may follow. -/
  | longOctal
  | shortOctal
  deriving DecidableEq, Repr

/-- What follows a character that is no digit of an escape: the end of the literal, a new escape, or
more of the same. -/
def next (quote c : CodePoint) (otherwise : State) : Option State :=
  if c == '\\'.toNat then some .escape
  else if c == quote then none
  else some otherwise

/-- The characters of a literal after its opening quote. `read` of them are read. Gives the escapes that
are none, and the number of characters up to the closing quote, or nothing if there is none. -/
def scan (quote : CodePoint) (read : Nat) : State → Text → List Remark × Option Nat
  | _, [] => ([], none)
  | .plain, c :: rest =>
    match next quote c .plain with
    | some state => scan quote (read + 1) state rest
    | none => ([], some (read + 1))
  | .escape, c :: rest =>
    if Text.oneOf "btnfru\"'\\" c then scan quote (read + 1) .plain rest
    else if Text.oneOf "0123" c then scan quote (read + 1) .longOctal rest
    else if Text.oneOf "4567" c then scan quote (read + 1) .shortOctal rest
    else
      let (remarks, length) := scan quote (read + 1) .escape rest
      (⟨.illegalEscape, some c⟩ :: remarks, length)
  | .longOctal, c :: rest =>
    if Text.oneOf "01234567" c then scan quote (read + 1) .shortOctal rest
    else
      match next quote c .longOctal with
      | some state => scan quote (read + 1) state rest
      | none => ([], some (read + 1))
  | .shortOctal, c :: rest =>
    match next quote c .plain with
    | some state => scan quote (read + 1) state rest
    | none => ([], some (read + 1))

/-- The literal whose opening quote is followed by `rest`. An unterminated one takes all the rest. -/
def read (quote : CodePoint) (rest : Text) : Reading :=
  match scan quote 0 .plain rest with
  | (remarks, some n) => { remarks, outcome := .ok ⟨.string, n⟩ }
  | (remarks, none) =>
    { remarks := remarks ++ [⟨.unterminatedLiteral, none⟩], outcome := .ok ⟨.string, rest.length⟩ }

end JavaSource.Lexer.Quotation

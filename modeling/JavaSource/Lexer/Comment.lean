import JavaSource.Text.Basic

/-!
# Comments

A comment goes to the end of its line, newline included, or to the next `*/`.
-/

namespace JavaSource.Lexer

/-- How a comment in front of the reader ends. -/
inductive Comment where
  /-- It takes this many characters after its first one. -/
  | closed (further : Nat)
  | unterminated
  deriving DecidableEq, Repr

/-- The comment at the start of a text, if there is one. -/
def comment? (text : Text) : Option Comment :=
  if (Text.ofString "//").isPrefixOf text then
    match Text.find? [Text.newline] (text.drop 2) with
    | some n => some (.closed (n + 2))
    | none => some (.closed (text.length - 1))
  else if (Text.ofString "/*").isPrefixOf text then
    match Text.find? "*/" (text.drop 2) with
    | some n => some (.closed (n + 3))
    | none => some .unterminated
  else none

def isJavadoc (comment : Text) : Bool := (Text.ofString "/**").isPrefixOf comment

end JavaSource.Lexer

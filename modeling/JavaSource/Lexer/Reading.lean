import JavaSource.Lexer.Complaint
import JavaSource.Token.Class

/-!
# Readings

A reading is what one reader of lexemes has to say about the text in front of it: the class and length
of the lexeme, and what is wrong with it. A lexeme always has a first character, so its length is given
by the number of characters after the first.
-/

namespace JavaSource.Lexer

/-- Something wrong with a lexeme: the reason and the character to show. Without a character, the one
right after the previous token is shown. -/
structure Remark where
  reason : Reason
  near : Option CodePoint := none
  deriving DecidableEq, Repr

/-- The class of a lexeme and the number of characters after its first one. -/
structure Lexeme where
  cls : TokenClass
  further : Nat
  deriving DecidableEq, Repr

structure Reading where
  remarks : List Remark := []
  outcome : Except Fault Lexeme

def Lexeme.ofLength (cls : TokenClass) (length : Nat) : Lexeme := ⟨cls, length - 1⟩

def Reading.plain (cls : TokenClass) (length : Nat) : Reading :=
  { outcome := .ok (.ofLength cls length) }

end JavaSource.Lexer

import JavaSource.Lexer.Number
import JavaSource.Lexer.Quotation
import JavaSource.Text.Digit
import JavaSource.Text.Identifier
import JavaSource.Token.Vocabulary

/-!
# The lexeme in front of the reader

The first characters of a text decide which reader takes them: an ellipsis goes before the separators,
a dot before a digit starts a number, and operators come last.
-/

namespace JavaSource.Lexer

def operatorReading? (text : Text) : Option Reading :=
  (Vocabulary.leadingOperator? text).map fun op => .plain .operator op.length

def wordReading (text : Text) : Reading :=
  let word := text.takeWhile Text.isIdentifierPart
  .plain (Vocabulary.classOfWord word) word.length

/-- The lexeme that starts with `c` and goes on in `rest`, if any lexeme does. -/
def lexeme? (c : CodePoint) (rest : Text) : Option Reading :=
  let text := c :: rest
  let dots := (Text.ofString "..").isPrefixOf text
  if dots && (operatorReading? text).isSome then operatorReading? text
  else if c == '@'.toNat then some (.plain .atSign 1)
  else if c == '.'.toNat && rest.head?.any Text.isDigit then
    some (Number.plain (Number.decimal text))
  else if Vocabulary.separators.contains c then some (.plain .separator 1)
  else if c == '\''.toNat || c == '"'.toNat then some (Quotation.read c rest)
  else if Number.isDecimal c then some (Number.read text)
  else if Text.isIdentifierStart c then some (wordReading text)
  else operatorReading? text

end JavaSource.Lexer

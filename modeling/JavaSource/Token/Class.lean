/-!
# Token classes

The classes of Java tokens and how they nest: a modifier is a keyword, a hexadecimal integer is an
integer and so a literal. Decimal integers are literals of their own, outside the class of integers.
-/

namespace JavaSource

inductive TokenClass where
  | token
  | endOfInput
  | keyword
  | modifier
  | basicType
  | literal
  | integer
  | decimalInteger
  | octalInteger
  | binaryInteger
  | hexInteger
  | floatingPoint
  | decimalFloatingPoint
  | hexFloatingPoint
  | boolean
  | character
  | string
  | null
  | separator
  | operator
  | atSign
  | identifier
  deriving DecidableEq, Repr

namespace TokenClass

def all : List TokenClass :=
  [token, endOfInput, keyword, modifier, basicType, literal, integer, decimalInteger, octalInteger,
   binaryInteger, hexInteger, floatingPoint, decimalFloatingPoint, hexFloatingPoint, boolean,
   character, string, null, separator, operator, atSign, identifier]

def name : TokenClass → String
  | token => "JavaToken"
  | endOfInput => "EndOfInput"
  | keyword => "Keyword"
  | modifier => "Modifier"
  | basicType => "BasicType"
  | literal => "Literal"
  | integer => "Integer"
  | decimalInteger => "DecimalInteger"
  | octalInteger => "OctalInteger"
  | binaryInteger => "BinaryInteger"
  | hexInteger => "HexInteger"
  | floatingPoint => "FloatingPoint"
  | decimalFloatingPoint => "DecimalFloatingPoint"
  | hexFloatingPoint => "HexFloatingPoint"
  | boolean => "Boolean"
  | character => "Character"
  | string => "String"
  | null => "Null"
  | separator => "Separator"
  | operator => "Operator"
  | atSign => "Annotation"
  | identifier => "Identifier"

def ofName? (s : String) : Option TokenClass := all.find? (·.name == s)

/-- The classes a class belongs to, itself first. -/
def lineage : TokenClass → List TokenClass
  | token => [token]
  | endOfInput => [endOfInput, token]
  | keyword => [keyword, token]
  | modifier => [modifier, keyword, token]
  | basicType => [basicType, keyword, token]
  | literal => [literal, token]
  | integer => [integer, literal, token]
  | decimalInteger => [decimalInteger, literal, token]
  | octalInteger => [octalInteger, integer, literal, token]
  | binaryInteger => [binaryInteger, integer, literal, token]
  | hexInteger => [hexInteger, integer, literal, token]
  | floatingPoint => [floatingPoint, literal, token]
  | decimalFloatingPoint => [decimalFloatingPoint, floatingPoint, literal, token]
  | hexFloatingPoint => [hexFloatingPoint, floatingPoint, literal, token]
  | boolean => [boolean, literal, token]
  | character => [character, literal, token]
  | string => [string, literal, token]
  | null => [null, literal, token]
  | separator => [separator, token]
  | operator => [operator, token]
  | atSign => [atSign, token]
  | identifier => [identifier, token]

/-- Whether every token of class `c` is also of class `d`. -/
def isA (c d : TokenClass) : Bool := c.lineage.contains d

/-- Whether tokens of this class read as a word: two of them need a blank between them. -/
def isWord (c : TokenClass) : Bool := c.isA literal || c.isA keyword || c.isA identifier

end TokenClass

end JavaSource

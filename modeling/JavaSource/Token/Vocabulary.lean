import JavaSource.Token.Basic

/-!
# The vocabulary of Java

The words and signs with a fixed spelling. The shifts `>>` and `>>>` are no signs of their own: two or
three `>` may also close nested type argument lists, and only a reader of expressions can tell.
-/

namespace JavaSource.Vocabulary

def texts (words : List String) : List Text := words.map Text.ofString

def keywords : List Text := texts
  ["abstract", "assert", "boolean", "break", "byte", "case", "catch", "char", "class", "const",
   "continue", "default", "do", "double", "else", "enum", "extends", "final", "finally", "float",
   "for", "goto", "if", "implements", "import", "instanceof", "int", "interface", "long", "native",
   "new", "package", "private", "protected", "public", "return", "short", "static", "strictfp",
   "super", "switch", "synchronized", "this", "throw", "throws", "transient", "try", "void",
   "volatile", "while"]

def modifiers : List Text := texts
  ["abstract", "default", "final", "native", "private", "protected", "public", "static", "strictfp",
   "synchronized", "transient", "volatile"]

def basicTypes : List Text := texts
  ["boolean", "byte", "char", "double", "float", "int", "long", "short"]

def booleans : List Text := texts ["true", "false"]

def null : Text := "null"

/-- The separators, each one character. -/
def separators : List CodePoint := Text.ofString "()\x7b\x7d[];,."

/-- The operators, longer ones before shorter ones. -/
def operators : List Text := texts
  [">>>=", ">>=", "<<=", "...", "%=", "^=", "|=", "&=", "/=", "*=", "-=", "+=", "<<", "--", "++",
   "||", "&&", "!=", ">=", "<=", "==", "->", "::", "%", "^", "|", "&", "/", "*", "-", "+", ":", "?",
   "~", "!", "<", ">", "="]

def infixOperators : List Text := texts
  ["||", "&&", "|", "^", "&", "==", "!=", "<", ">", "<=", ">=", "<<", ">>", ">>>", "+", "-", "*",
   "/", "%"]

def prefixOperators : List Text := texts ["++", "--", "!", "~", "+", "-"]

def postfixOperators : List Text := texts ["++", "--"]

def assignmentOperators : List Text := texts
  ["=", "+=", "-=", "*=", "/=", "&=", "|=", "^=", "%=", "<<=", ">>=", ">>>="]

/-- The class of a word: the narrowest one it belongs to. -/
def classOfWord (word : Text) : TokenClass :=
  if keywords.contains word then
    if basicTypes.contains word then .basicType
    else if modifiers.contains word then .modifier
    else .keyword
  else if booleans.contains word then .boolean
  else if word == null then .null
  else .identifier

/-- The longest operator with which a text starts. -/
def leadingOperator? (text : Text) : Option Text := operators.find? (·.isPrefixOf text)

end JavaSource.Vocabulary

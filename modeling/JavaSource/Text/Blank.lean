import JavaSource.Text.Basic

/-!
# Blanks and lines

White space as Unicode 14 has it, cutting white space off a text, and the lines and words of a text.
-/

namespace JavaSource.Text

def blankRanges : List (CodePoint × CodePoint) :=
  [(9, 13), (28, 32), (133, 133), (160, 160), (5760, 5760), (8192, 8202), (8232, 8233),
   (8239, 8239), (8287, 8287), (12288, 12288)]

def isBlank (c : CodePoint) : Bool := inRanges blankRanges c

def trimLeft (text : Text) : Text := text.dropWhile isBlank

def trimRight (text : Text) : Text := (text.reverse.dropWhile isBlank).reverse

def trim (text : Text) : Text := trimRight (trimLeft text)

def lineBreaks : List CodePoint := [10, 11, 12, 13, 28, 29, 30, 133, 8232, 8233]

def isLineBreak (c : CodePoint) : Bool := lineBreaks.contains c

/-- The lines of `text`, of which `current` is the start of the first, reversed. A carriage return
and the line feed after it end one line, and a line break at the very end starts no further line. -/
def linesFrom (current : Text) : Text → List Text
  | [] => if current.isEmpty then [] else [current.reverse]
  | 13 :: 10 :: rest => current.reverse :: linesFrom [] rest
  | c :: rest =>
    if isLineBreak c then current.reverse :: linesFrom [] rest else linesFrom (c :: current) rest

def lines (text : Text) : List Text := linesFrom [] text

/-- The pieces of `text` between newlines, of which `current` is the start of the first, reversed. -/
def splitNewlinesFrom (current : Text) : Text → List Text
  | [] => [current.reverse]
  | c :: rest =>
    if c == newline then current.reverse :: splitNewlinesFrom [] rest
    else splitNewlinesFrom (c :: current) rest

/-- The pieces of a text between newlines; a text without newlines is one piece. -/
def splitNewlines (text : Text) : List Text := splitNewlinesFrom [] text

/-- The first word of a text and all that follows the white space after it, if anything does. -/
def firstWord? (text : Text) : Option (Text × Text) :=
  let body := trimLeft text
  let word := body.takeWhile (!isBlank ·)
  let rest := trimLeft (body.dropWhile (!isBlank ·))
  if word.isEmpty || rest.isEmpty then none else some (word, rest)

end JavaSource.Text

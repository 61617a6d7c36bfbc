import JavaSource.Text.Blank

/-!
# Documentation comments

The steps from a documentation comment to plain text with its tags at the starts of lines: the marks at both
ends and the stars at the starts of lines are removed, then the margin that all lines have in common, and then
whatever stands before a tag on its line.
-/

namespace JavaSource.Javadoc

/-- The comment without white space around it and with blanks for its tabs, if it is a documentation
comment. -/
def sanitize? (raw : Text) : Option Text :=
  let s := Text.trim raw
  if Text.ofString "/**" == s.take 3 && Text.ofString "*/" == s.drop (s.length - 2) then
    some (s.flatMap fun c => if c == '\t'.toNat then Text.ofString "    " else [c])
  else none

/-- What follows a mark, if only white space stands before the mark. The white space may go over several
lines. -/
def afterMark? (mark : CodePoint) (text : Text) : Option Text :=
  match text.dropWhile Text.isBlank with
  | [] => none
  | c :: rest => if c == mark then some rest else none

theorem length_lt_of_afterMark? {mark : CodePoint} {text rest : Text}
    (h : afterMark? mark text = some rest) : rest.length < text.length := by
  have shorter := (List.dropWhile_sublist (l := text) Text.isBlank).length_le
  unfold afterMark? at h
  split at h
  · cases h
  · rename_i c tail found
    rw [found, List.length_cons] at shorter
    split at h
    · cases h
      omega
    · cases h

/-- Puts a replacement where a line starts with a mark after white space, the white space included. The flag
tells whether the text begins at the start of a line. -/
def replaceMarks (mark : CodePoint) (replacement : Text) (atStart : Bool) (text : Text) : Text :=
  match _ : text with
  | [] => []
  | c :: rest =>
    match _ : if atStart then afterMark? mark (c :: rest) else none with
    | some tail => replacement ++ replaceMarks mark replacement false tail
    | none => c :: replaceMarks mark replacement (c == Text.newline) rest
termination_by text.length
decreasing_by
  · rename_i found
    split at found
    · exact length_lt_of_afterMark? found
    · cases found
  · simp

/-- The comment without the marks at its ends, and without the stars at the starts of its lines. -/
def uncomment (s : Text) : Text :=
  replaceMarks '*'.toNat [] true (Text.trim ((s.take (s.length - 2)).drop 3))

def indentLevel (s : Text) : Nat := s.length - (Text.trimLeft s).length

/-- The least number in a list of numbers that is not empty. -/
def least : List Nat → Nat
  | [] => 0
  | [n] => n
  | n :: rest => min n (least rest)

/-- The text without the margin that all its lines have, blank lines aside. -/
def leftJustify (s : Text) : Text :=
  let lines := Text.lines (Text.trimRight s)
  if lines.isEmpty then []
  else
    let margin := least ((lines.filter fun line => !(Text.trim line).isEmpty).map indentLevel)
    if margin = 0 then s
    else Text.join [Text.newline] (lines.map (·.drop margin))

def tagsToLeft (s : Text) : Text := replaceMarks '@'.toNat (Text.ofString "@") true s

/-- The pieces of a text between the tag marks at the starts of lines. `current` is the start of the first
piece, reversed. -/
def piecesFrom (current : Text) (atStart : Bool) : Text → List Text
  | [] => [current.reverse]
  | c :: rest =>
    if atStart && c == '@'.toNat then current.reverse :: piecesFrom [] false rest
    else piecesFrom (c :: current) (c == Text.newline) rest

/-- The pieces of a text between the tag marks at the starts of lines: the description, and then one piece
for each tag. -/
def pieces (s : Text) : List Text := piecesFrom [] true s

end JavaSource.Javadoc

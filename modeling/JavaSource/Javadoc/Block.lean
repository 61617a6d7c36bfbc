import JavaSource.Javadoc.Comment

/-!
# Documentation blocks

What a documentation comment says: a description, and tags with their values. Some tags are sorted by their
meaning as well: parameters, exceptions, the return value, authors, and whether the use is discouraged.
-/

namespace JavaSource

/-- What a documentation comment says. -/
structure DocBlock where
  description : Text := []
  returns : Option Text := none
  params : List (Text × Text) := []
  authors : List Text := []
  deprecated : Bool := false
  /-- The exceptions and what is said about them, in the order in which they are first named. -/
  throws : List (Text × Text) := []
  /-- The values of each tag, in the order in which the tags first occur. -/
  tags : List (Text × List Text) := []

namespace DocBlock

/-- A list of entries with the entry for a key changed, or added at the end. -/
def update {α : Type} (key : Text) (change : Option α → α) : List (Text × α) → List (Text × α)
  | [] => [(key, change none)]
  | (k, v) :: rest =>
    if k == key then (k, change (some v)) :: rest else (k, v) :: update key change rest

/-- The lines of a text, without the white space around them, on one line. -/
def joinLines (s : Text) : Text :=
  Text.join (Text.ofString " ") ((Text.splitNewlines s).map Text.trim)

/-- The first word of a value and all the rest of it on one line. -/
def wordAndRest (value : Text) : Text × Text :=
  match Text.firstWord? value with
  | some (word, rest) => (word, joinLines rest)
  | none => (value, joinLines [])

/-- The block with what a tag means, apart from the tag itself. -/
def interpret (name value : Text) (d : DocBlock) : DocBlock :=
  if name == Text.ofString "param" then { d with params := d.params ++ [wordAndRest value] }
  else if name == Text.ofString "throws" || name == Text.ofString "exception" then
    let (word, rest) := wordAndRest value
    { d with throws := update word (fun _ => rest) d.throws }
  else if name == Text.ofString "return" then { d with returns := some value }
  else if name == Text.ofString "author" then { d with authors := d.authors ++ [value] }
  else if name == Text.ofString "deprecated" then { d with deprecated := true }
  else d

def addBlock (name value : Text) (d : DocBlock) : DocBlock :=
  let value := Text.trim value
  let d := d.interpret name value
  { d with tags := update name (fun values => values.getD [] ++ [value]) d.tags }

end DocBlock

namespace Javadoc

/-- The name and the value of the tag in a piece. A piece of a single word is a name as it stands, white
space included. -/
def tagOf (piece : Text) : Text × Text := (Text.firstWord? piece).getD (piece, [])

def ofPrepared (s : Text) : DocBlock :=
  match pieces s with
  | [] => {}
  | first :: tags =>
    tags.foldl (fun d piece => let (name, value) := tagOf piece; d.addBlock name value)
      { description := Text.trim first }

def parse? (raw : Text) : Option DocBlock :=
  (sanitize? raw).map fun s => ofPrepared (tagsToLeft (leftJustify (uncomment s)))

end Javadoc

end JavaSource

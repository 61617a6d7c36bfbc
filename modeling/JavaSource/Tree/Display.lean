import JavaSource.Text.Quoted
import JavaSource.Tree.Basic

/-!
# The text of a tree

A tree is shown on one line. A node shows its declared attributes in the order of their names. A text is
shown as it is, and quoted inside of a list.
-/

namespace JavaSource.Tree

/-- Items between two brackets, with commas between them. -/
def enclosed (opening : String) (items : List Text) (closing : String) : Text :=
  Text.ofString opening ++ Text.join (Text.ofString ", ") items ++ Text.ofString closing

def entry (a : Attr) (value : Text) : Text :=
  Text.ofString a.spelling ++ Text.ofString "=" ++ value

/-- The entries of a node in the order of the names of their attributes. -/
def sortedEntries (kind : Kind) (values : List (Attr × Text)) : List Text :=
  let declared := values.filter fun (a, _) => kind.attrs.contains a
  let sorted := declared.mergeSort fun (a, _) (b, _) => decide (a.spelling ≤ b.spelling)
  sorted.map fun (a, value) => entry a value

mutual

/-- The text of a tree, where a text is quoted if asked to. -/
def display (quoted : Bool) : Tree → Text
  | null => "None"
  | bool b => if b then "True" else "False"
  | int n => Text.ofInt n
  | float x => x.text
  | text s => if quoted then Text.quoted s else s
  | list xs => enclosed "[" (displayAll xs) "]"
  | tuple [x] => enclosed "(" [display true x] ",)"
  | tuple xs => enclosed "(" (displayAll xs) ")"
  | set [] => "set()"
  | set xs => enclosed "\x7b" (displayAll xs) "\x7d"
  | token cls value position _ _ _ => Token.describeAs cls (display false value) position
  | node kind fields _ =>
    enclosed (kind.name ++ "(") (sortedEntries kind (displayFields fields)) ")"

def displayAll : List Tree → List Text
  | [] => []
  | x :: xs => display true x :: displayAll xs

def displayFields : List (Attr × Tree) → List (Attr × Text)
  | [] => []
  | (a, x) :: rest => (a, display false x) :: displayFields rest

end

def shown (t : Tree) : Text := t.display false

end JavaSource.Tree

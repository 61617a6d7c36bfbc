import JavaSource.Tree.Display
import JavaSource.Tree.Walk

/-!
# Printing

A printer writes a tree as source text. Its state is the level of indentation, which a failure inside of a
block leaves raised. The parts of a tree are printed by a function given as an argument, so that each form of
tree is a definition of its own.

Most forms give a text. A few give a part of the tree as it is, whatever it is, so what is printed is a tree
again; where a text is needed and something else was printed, printing fails.
-/

namespace JavaSource

/-- What is done while printing: it may fail, and the level of indentation is kept also then. -/
abbrev PrintM := ExceptT TreeFailure (StateM Int)

namespace Printer

abbrev Print := Tree → PrintM Tree

def lift {α : Type} : Except TreeFailure α → PrintM α
  | .ok a => return a
  | .error failure => throw failure

def attr (t : Tree) (a : Attr) : PrintM Tree := lift (t.require a)

def textOf : Tree → PrintM Text
  | .text s => return s
  | _ => throw .wrongType

def textual (print : Print) (t : Tree) : PrintM Text := do
  let printed ← print t
  textOf printed

/-- Prints a part, and shows whatever it gives. -/
def showing (print : Print) (t : Tree) : PrintM Text := do
  let printed ← print t
  return printed.shown

/-- The text of an attribute, whatever it is. -/
def shownAttr (t : Tree) (a : Attr) : PrintM Text := do
  let value ← attr t a
  return value.shown

def indentation : PrintM Text := do
  let level ← get
  return Text.copies (4 * level.toNat) ' '

def indented {α : Type} (action : PrintM α) : PrintM α := do
  modify (· + 1)
  let a ← action
  modify (· - 1)
  return a

/-- The texts that an action gives for the elements of a tree, one after the other. -/
def textsOf (action : Tree → PrintM Text) : List Tree → PrintM Text
  | [] => return []
  | x :: xs => do
    let first ← action x
    let rest ← textsOf action xs
    return first ++ rest

/-- The texts that an action gives for whatever can be found in a tree one by one. -/
def each (t : Tree) (action : Tree → PrintM Text) : PrintM Text := do
  let elements ← lift t.elements
  textsOf action elements

def cut (n : Nat) (s : Text) : Text := s.take (s.length - n)

/-- A text without its last `n` characters, if a value counts as something. -/
def cutIf (t : Tree) (n : Nat) (s : Text) : Text := if t.isTrue then cut n s else s

/-- The texts of the elements of a tree, if they all are texts. -/
def texts (t : Tree) : PrintM (List Text) := do
  let elements ← lift t.elements
  elements.mapM textOf

/-- The modifiers of a declaration in the order of their code points. -/
def sortedModifiers (t : Tree) : PrintM (List Text) := do
  let modifiers ← attr t .modifiers
  let words ← texts modifiers
  return words.mergeSort Text.isAtMost

def spaced (words : List Text) : Text := Text.join (Text.ofString " ") words

def spacedAfter (words : List Text) : Text :=
  if words.isEmpty then [] else spaced words ++ Text.ofString " "

/-- Statements between braces. The indentation is raised for them. -/
def braced (print : Print) (statements : Tree) : PrintM Text := do
  let margin ← indentation
  let inside ← indented (each statements (textual print))
  return margin ++ Text.ofString "\x7b\n" ++ inside ++ margin ++ Text.ofString "\x7d"

def brackets (dimensions : Tree) : PrintM Text := do
  if dimensions.isTrue then
    match dimensions with
    | .list xs => return (List.replicate xs.length (Text.ofString "[]")).flatten
    | .tuple xs => return (List.replicate xs.length (Text.ofString "[]")).flatten
    | .set xs => return (List.replicate xs.length (Text.ofString "[]")).flatten
    | .text s => return (List.replicate s.length (Text.ofString "[]")).flatten
    | _ => throw .wrongType
  else return []

/-- What was printed, with a text after it. A list takes its characters. -/
def followedBy (printed : Tree) (s : Text) : PrintM Tree :=
  match printed with
  | .text t => return .text (t ++ s)
  | .list xs => return .list (xs ++ s.map fun c => .text [c])
  | _ => throw .wrongType

/-- What was printed, with something else that was printed after it. A list takes its elements. -/
def joinedWith (printed more : Tree) : PrintM Tree :=
  match printed, more with
  | .text t, .text s => return .text (t ++ s)
  | .list xs, more => do
    let elements ← lift more.elements
    return .list (xs ++ elements)
  | _, _ => throw .wrongType

/-- What was printed, without its last `n` characters or items. -/
def shortenedBy (n : Nat) : Tree → PrintM Tree
  | .text t => return .text (cut n t)
  | .list xs => return .list (xs.take (xs.length - n))
  | _ => throw .wrongType

/-- What was printed, without what stands at its two ends. -/
def inner : Tree → PrintM Tree
  | .text t => return .text (cut 1 t |>.drop 1)
  | .list xs => return .list (xs.dropLast.drop 1)
  | _ => throw .wrongType

end Printer

end JavaSource

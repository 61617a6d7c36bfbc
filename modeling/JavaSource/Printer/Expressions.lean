import JavaSource.Printer.Declarations

/-!
# Printing expressions

Neither parentheses nor the operators before and after an operand are printed.
-/

namespace JavaSource.Printer

open Text

def literal (t : Tree) : PrintM Tree := attr t .value

def qualifier (t : Tree) : PrintM Text := do
  let qualifier ← attr t .qualifier
  return if qualifier.isTrue then qualifier.shown ++ ofString "." else []

def dottedSelectors (print : Print) (t : Tree) : PrintM Text := do
  let selectors ← attr t .selectors
  if selectors.isTrue then
    each selectors fun selector => do
      let printed ← showing print selector
      return ofString "." ++ printed
  else return []

def methodInvocation (print : Print) (t : Tree) : PrintM Text := do
  let qualifier ← qualifier t
  let member ← shownAttr t .member
  let arguments ← attr t .arguments
  let listed ← each arguments fun argument => do
    let printed ← textual print argument
    return printed ++ ofString ", "
  let selectors ← dottedSelectors print t
  return cutIf arguments 2 (qualifier ++ member ++ ofString "(" ++ listed) ++ ofString ")" ++ selectors

def memberReference (print : Print) (t : Tree) : PrintM Text := do
  let qualifier ← qualifier t
  let selectors ← attr t .selectors
  if selectors.isTrue then
    let printed ← each selectors fun selector => do
      let printed ← showing print selector
      return if selector.kind? = some .arraySelector then printed else ofString "." ++ printed
    let member ← shownAttr t .member
    return qualifier ++ member ++ printed
  else
    let member ← attr t .member
    let member ← textOf member
    return qualifier ++ member

def arraySelector (print : Print) (t : Tree) : PrintM Text := do
  let index ← attr t .index
  let printed ← showing print index
  return ofString "[" ++ printed ++ ofString "]"

def binaryOperation (print : Print) (t : Tree) : PrintM Text := do
  let left ← attr t .leftOperand
  let left ← textual print left
  let operator ← shownAttr t .operator
  let right ← attr t .rightOperand
  let right ← textual print right
  return left ++ ofString " " ++ operator ++ ofString " " ++ right

def cast (print : Print) (t : Tree) : PrintM Text := do
  let type ← attr t .type
  let type ← showing print type
  let expression ← attr t .expression
  let expression ← textual print expression
  return ofString "(" ++ type ++ ofString ") " ++ expression

/-- An assignment. What its left side gives need not be a text. -/
def assignment (print : Print) (t : Tree) : PrintM Tree := do
  let target ← attr t .target
  let printed ← print target
  let operator ← shownAttr t .type
  let printed ← followedBy printed (ofString " " ++ operator ++ ofString " ")
  let value ← attr t .value
  let value ← print value
  joinedWith printed value

def lambdaExpression (print : Print) (t : Tree) : PrintM Text := do
  let parameters ← attr t .parameters
  let listed ← each parameters fun parameter => do
    let printed ← showing print parameter
    return printed ++ ofString ", "
  let head := cutIf parameters 2 (ofString "(" ++ listed) ++ ofString ") -> "
  let body ← attr t .body
  match body with
  | .list [] => return head ++ ofString "\x7b\x7d"
  | .list statements =>
    let inside ← indented (textsOf (showing print) statements)
    let margin ← indentation
    return head ++ ofString "\x7b\n" ++ inside ++ margin ++ ofString "\x7d"
  | body =>
    let printed ← textual print body
    return head ++ printed

/-- A method reference. One that names a member is printed as that member. -/
def methodReference (print : Print) (t : Tree) : PrintM Tree := do
  match t.get? .member with
  | some member => return member
  | none =>
    let typeArguments ← attr t .typeArguments
    let listed ← each typeArguments (textual print)
    let expression ← attr t .expression
    let expression ← showing print expression
    let method ← attr t .method
    let method ← showing print method
    return .text (expression ++ ofString "::" ++ listed ++
      (if typeArguments.isTrue then ofString " " else []) ++ method)

/-! ## Creators -/

def firstOf : Tree → PrintM Tree
  | .list (x :: _) => return x
  | .tuple (x :: _) => return x
  | .text (c :: _) => return .text [c]
  | .list [] | .tuple [] | .text [] => throw .outOfRange
  | _ => throw .wrongType

/-- The body of an anonymous class. A body that starts with an initializer block is printed as that block
alone, in two pairs of braces. -/
def anonymousBody (print : Print) (body : Tree) : PrintM Text := do
  let first ← firstOf body
  let (statements, opening, closing) := match first with
    | .list _ => (first, ofString " \x7b\x7b\n", ofString "\x7d\x7d")
    | _ => (body, ofString " \x7b\n", ofString "\x7d")
  let inside ← indented (each statements (textual print))
  let margin ← indentation
  return opening ++ inside ++ margin ++ closing

/-- The selectors after a creator, each on a line of its own. -/
def selectorLines (print : Print) (selectors : Tree) : PrintM Text := do
  let lines ← indented do
    each selectors fun selector => do
      let margin ← indentation
      let printed ← showing print selector
      return margin ++ ofString "." ++ printed ++ [newline]
  return cut 1 ([newline] ++ lines)

def classCreator (print : Print) (t : Tree) : PrintM Text := do
  let type ← attr t .type
  let type ← showing print type
  let arguments ← eachOf print t .arguments
  let selectors ← attr t .selectors
  let selectors ← if selectors.isTrue then selectorLines print selectors else pure []
  let body ← attr t .body
  let body ← if body.isTrue then anonymousBody print body else pure []
  return ofString "new " ++ type ++ ofString "(" ++ arguments ++ ofString ")" ++ selectors ++ body

def arrayCreator (print : Print) (t : Tree) : PrintM Text := do
  let type ← attr t .type
  let type ← showing print type
  let dimensions ← attr t .dimensions
  let pairs ← brackets dimensions
  let initializer ← attr t .initializer
  let initializer ← textual print initializer
  return ofString "new " ++ type ++ pairs ++ initializer

def classReference (print : Print) (t : Tree) : PrintM Text := do
  let type ← attr t .type
  let type ← showing print type
  return type ++ ofString ".class"

/-- The items of an array initializer. One that is an array initializer itself stands on a line of its own. -/
def initializers (print : Print) (isFirst : Bool) : List Tree → PrintM Text
  | [] => return []
  | x :: xs => do
    let item ←
      if x.kind? = some .arrayInitializer then
        indented do
          let margin ← indentation
          let printed ← showing print x
          return (if isFirst then [] else ofString ",") ++ [newline] ++ margin ++ printed
      else
        let printed ← showing print x
        pure ((if isFirst then [] else ofString ", ") ++ printed)
    let rest ← initializers print false xs
    return item ++ rest

def arrayInitializer (print : Print) (t : Tree) : PrintM Text := do
  let items ← attr t .initializers
  let items ← lift items.elements
  let printed ← initializers print true items
  let nested := items.any fun x => x.kind? = some .arrayInitializer
  let margin ← indentation
  return ofString "\x7b" ++ printed ++ (if nested then [newline] ++ margin else []) ++
    ofString "\x7d"

end JavaSource.Printer

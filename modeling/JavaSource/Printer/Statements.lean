import JavaSource.Printer.Declarations

/-!
# Printing statements
-/

namespace JavaSource.Printer

open Text

def statementExpression (print : Print) (t : Tree) : PrintM Text := do
  let margin ← indentation
  let expression ← attr t .expression
  let printed ← textual print expression
  return margin ++ printed ++ ofString ";\n"

/-- An `if` statement without its margin. One that follows `else` stands on the same line, so a chain of them
is printed from one to the next; the number bounds the length of the chain. -/
def ifChain (print : Print) : Nat → Tree → PrintM Text
  | 0, _ => throw .wrongType
  | n + 1, t => do
    let condition ← attr t .condition
    let condition ← textual print condition
    let thenStatement ← attr t .thenStatement
    let thenStatement ← textual print thenStatement
    let head := ofString "if (" ++ condition ++ ofString ")\n" ++ thenStatement
    let elseStatement ← attr t .elseStatement
    if elseStatement.isTrue then
      let margin ← indentation
      if elseStatement.isA .ifStatement then
        let rest ← ifChain print n elseStatement
        return head ++ margin ++ ofString "else " ++ rest
      else
        let rest ← textual print elseStatement
        return head ++ margin ++ ofString "else\n" ++ rest
    else return head

def ifStatement (print : Print) (n : Nat) (t : Tree) : PrintM Text := do
  let margin ← indentation
  let chain ← ifChain print n t
  return margin ++ chain

def returnStatement (print : Print) (t : Tree) : PrintM Text := do
  let margin ← indentation
  let expression ← attr t .expression
  let printed ← showing print expression
  return margin ++ ofString "return " ++ printed ++ ofString ";\n"

def blockStatement (print : Print) (t : Tree) : PrintM Text := do
  let statements ← attr t .statements
  let block ← braced print statements
  return block ++ [newline]

def forStatement (print : Print) (t : Tree) : PrintM Text := do
  let margin ← indentation
  let control ← attr t .control
  let control ← textual print control
  let body ← attr t .body
  let body ← textual print body
  return margin ++ ofString "for (" ++ control ++ ofString ")\n" ++ body

def enhancedForControl (print : Print) (t : Tree) : PrintM Text := do
  let loopVariable ← attr t .loopVariable
  let loopVariable ← showing print loopVariable
  let iterable ← attr t .iterable
  let iterable ← showing print iterable
  return loopVariable ++ ofString " : " ++ iterable

/-- A block on a line of its own, if it counts as something. -/
def optionalBlock (print : Print) (t : Tree) (a : Attr) : PrintM Text := do
  let block ← attr t a
  if block.isTrue then
    let printed ← braced print block
    return [newline] ++ printed
  else return []

def tryStatement (print : Print) (t : Tree) : PrintM Text := do
  let margin ← indentation
  let resources ← attr t .resources
  let resources ←
    if resources.isTrue then
      let printed ← each resources (textual print)
      pure (ofString " " ++ printed)
    else pure []
  let block ← optionalBlock print t .block
  let catches ← eachOfSome print t .catches
  let finallyBlock ← attr t .finallyBlock
  let last ←
    if finallyBlock.isTrue then
      let printed ← braced print finallyBlock
      pure (margin ++ ofString "finally\n" ++ printed ++ [newline])
    else pure []
  return margin ++ ofString "try" ++ resources ++ block ++ [newline] ++ catches ++ last

def tryResource (print : Print) (t : Tree) : PrintM Text := do
  let type ← attr t .type
  let type ← textual print type
  let name ← shownAttr t .name
  let value ← attr t .value
  let value ← textual print value
  return ofString "(" ++ type ++ ofString " " ++ name ++ ofString " = " ++ value ++ ofString ")"

def catchClause (print : Print) (t : Tree) : PrintM Text := do
  let margin ← indentation
  let parameter ← attr t .parameter
  let parameter ← textual print parameter
  let block ← optionalBlock print t .block
  return margin ++ ofString "catch (" ++ parameter ++ ofString ")" ++ block ++ [newline]

def catchClauseParameter (t : Tree) : PrintM Text := do
  let types ← attr t .types
  let types ← texts types
  let name ← shownAttr t .name
  return spaced types ++ ofString " " ++ name

end JavaSource.Printer

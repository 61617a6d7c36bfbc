import JavaSource.Printer.Basic

/-!
# Printing declarations

The supertypes of a class, type parameters, and much of what an interface declares are not printed.
-/

namespace JavaSource.Printer

open Text

/-- The documentation of a declaration after a margin, if it has one. -/
def documentation (margin : Text) (t : Tree) : PrintM Text := do
  let documentation ← attr t .documentation
  if documentation.isTrue then return margin ++ documentation.shown ++ [newline] else return []

def eachOf (print : Print) (t : Tree) (a : Attr) : PrintM Text := do
  let value ← attr t a
  each value (textual print)

/-- Prints each element of an attribute, if it counts as something. -/
def eachOfSome (print : Print) (t : Tree) (a : Attr) : PrintM Text := do
  let value ← attr t a
  if value.isTrue then each value (textual print) else return []

def compilationUnit (print : Print) (t : Tree) : PrintM Text := do
  let package ← attr t .package
  let first ← if package.isTrue then textual print package else pure []
  let imports ← eachOfSome print t .imports
  let types ← eachOfSome print t .types
  return first ++ imports ++ types

def packageDeclaration (t : Tree) : PrintM Text := do
  let name ← shownAttr t .name
  return ofString "package " ++ name ++ ofString ";\n\n"

def importDeclaration (t : Tree) : PrintM Text := do
  let isStatic ← attr t .isStatic
  let path ← shownAttr t .path
  return ofString "import " ++ (if isStatic.isTrue then ofString "static " else []) ++ path ++
    ofString ";\n"

def interfaces (print : Print) (t : Tree) : PrintM Text := do
  let interfaces ← attr t .implements
  if interfaces.isTrue then
    let types ← each interfaces fun type => do
      let printed ← showing print type
      return ofString " " ++ printed ++ ofString ","
    return cut 1 (ofString " implements" ++ types)
  else return []

def classDeclaration (print : Print) (t : Tree) : PrintM Text := do
  let documentation ← documentation [] t
  let annotations ← eachOf print t .annotations
  let margin ← indentation
  let modifiers ← sortedModifiers t
  let name ← shownAttr t .name
  let interfaces ← interfaces print t
  let body ← indented (eachOf print t .body)
  return [newline] ++ documentation ++ annotations ++ margin ++ spaced modifiers ++
    ofString " class " ++ name ++ interfaces ++ ofString "\n\x7b" ++ body ++ margin ++
    ofString "\x7d\n\n"

def interfaceDeclaration (print : Print) (t : Tree) : PrintM Text := do
  let name ← shownAttr t .name
  let body ← indented (eachOf print t .body)
  let margin ← indentation
  return ofString "\ninterface " ++ name ++ ofString "\n\x7b\n" ++ body ++ margin ++
    ofString "\x7d\n\n"

/-- What stands between the modifiers and the name of a method: its return type. What has no return type, not
even none, loses the blank before its name. -/
def returnType (print : Print) (before : Text) (t : Tree) : PrintM Text := do
  match t.get? .returnType with
  | none => return cut 1 before
  | some .null => return before ++ ofString "void"
  | some type =>
    let printed ← textual print type
    return before ++ printed

def throwsClause (t : Tree) : PrintM Text := do
  let throws ← attr t .throws
  if throws.isTrue then
    let names ← each throws fun name => return ofString " " ++ name.shown ++ ofString ","
    return cut 1 (ofString " throws" ++ names)
  else return []

def methodDeclaration (print : Print) (t : Tree) : PrintM Text := do
  let margin ← indentation
  let documentation ← documentation margin t
  let annotations ← eachOf print t .annotations
  let modifiers ← sortedModifiers t
  let head ← returnType print
    ([newline] ++ documentation ++ annotations ++ margin ++ spacedAfter modifiers) t
  let name ← shownAttr t .name
  let parameters ← attr t .parameters
  let listed ← each parameters fun parameter => do
    let printed ← showing print parameter
    return printed ++ ofString ", "
  let throws ← throwsClause t
  let signature := cutIf parameters 2 (head ++ ofString " " ++ name ++ ofString "(" ++ listed) ++
    ofString ")" ++ throws
  let body ← attr t .body
  if body.isTrue then
    let block ← braced print body
    return signature ++ [newline] ++ block ++ [newline]
  else return signature ++ ofString ";\n"

def formalParameter (print : Print) (t : Tree) : PrintM Text := do
  let given ← attr t .modifiers
  let modifiers ← if given.isTrue then sortedModifiers t else pure []
  let type ← attr t .type
  let printed ← textual print type
  let name ← shownAttr t .name
  return (if given.isTrue then spaced modifiers ++ ofString " " else []) ++ printed ++
    ofString " " ++ name

def inferredFormalParameter (t : Tree) : PrintM Tree := attr t .name

def fieldDeclaration (print : Print) (t : Tree) : PrintM Text := do
  let margin ← indentation
  let modifiers ← sortedModifiers t
  let type ← attr t .type
  let printed ← textual print type
  let declarators ← attr t .declarators
  let listed ← each declarators fun declarator => do
    let printed ← showing print declarator
    return ofString " " ++ printed
  return margin ++ spacedAfter modifiers ++ printed ++ listed ++ ofString ";\n"

/-- The modifiers, the type and the declarators of a variable. -/
def variableDeclaration (print : Print) (t : Tree) : PrintM Text := do
  let modifiers ← sortedModifiers t
  let type ← attr t .type
  let printed ← showing print type
  let declarators ← eachOf print t .declarators
  return spacedAfter modifiers ++ printed ++ ofString " " ++ declarators

def localVariableDeclaration (print : Print) (t : Tree) : PrintM Text := do
  let margin ← indentation
  let declaration ← variableDeclaration print t
  return margin ++ declaration ++ ofString ";\n"

def variableDeclarator (print : Print) (t : Tree) : PrintM Text := do
  let name ← attr t .name
  let name ← textOf name
  let initializer ← attr t .initializer
  if initializer.isTrue then
    let printed ← textual print initializer
    return name ++ ofString " = " ++ printed
  else return name

/-- An annotation. What stands between its parentheses is shown, not printed. -/
def annotationUse (t : Tree) : PrintM Text := do
  let margin ← indentation
  let name ← shownAttr t .name
  let element ← attr t .element
  let arguments := match element with
    | .null => []
    | element => ofString "(" ++ element.shown ++ ofString ")"
  return margin ++ ofString "@" ++ name ++ arguments ++ [newline]

end JavaSource.Printer

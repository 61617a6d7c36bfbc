import JavaSource.Parser.Run

/-!
# Compilation units

A compilation unit is a package declaration, imports and type declarations, each of which may be missing.
Annotations at its start belong to the package if a package follows, and to the first type otherwise.
-/

namespace JavaSource.Parser

open Grammar

def leadingAnnotations : Routine (Option (List Tree)) := do
  if ← annotationAt 0 then some <$> Grammar.parse .annotations else return none

def packageDeclaration (wrap : Wrapper) : ParseM Tree := do
  push
  let first ← look 0
  let annotations ← exec wrap leadingAnnotations
  if ← exec wrap (tryAccept ["package"]) then
    pop false
    let start ← look 0
    let name ← follow wrap .qualifiedIdentifier
    discard <| exec wrap (accept [";"])
    let package := Tree.make .packageDeclaration
      [(.annotations, .ofList? annotations), (.name, .text name),
       (.documentation, .ofText? (javadocOf first))]
    return package.placeAt (positionOf start)
  else
    pop true
    return .null

def importDeclarations : Routine (List Tree) :=
  whileTrue (wouldAccept ["import"]) do
    let start ← peek
    let declaration ← Grammar.parse .importDeclaration
    return declaration.placeAt (positionOf start)

/-- The next type declaration. Where the tokens end inside it, that is a syntax error. -/
def nextTypeDeclaration (wrap : Wrapper) : ParseM (Option Tree) := do
  match ← outcome (follow wrap .typeDeclaration) with
  | .ok declaration => return declaration
  | .error .endOfInput => exec wrap (illegal "Unexpected end of input")
  | .error failure => throw failure

/-- The type declarations up to the end, after those read already. -/
def typeDeclarations (wrap : Wrapper) : ParseM (List Tree) := do
  let p ← get
  let read ← iterate (fun read => do
    match ← look 0 with
    | none => return (read, false)
    | some _ =>
      match ← nextTypeDeclaration wrap with
      | some declaration => return (declaration :: read, true)
      | none => return (read, true)) p.turns []
  return read.reverse

def compilationUnit (wrap : Wrapper) : ParseM Tree :=
  wrap "parse_compilation_unit" do
    let package ← packageDeclaration wrap
    let imports ← exec wrap importDeclarations
    let types ← typeDeclarations wrap
    return .make .compilationUnit
      [(.package, package), (.imports, .list imports), (.types, .list types)]

end JavaSource.Parser

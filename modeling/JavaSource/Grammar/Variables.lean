import JavaSource.Grammar.Annotations

/-!
# Parameters and variables

Rules for the parameters of methods, and for declarators with their initial values.
-/

namespace JavaSource.Grammar.Body

/-- One parameter of a method, and whether it stands for any number of arguments. -/
def formalParameter : Routine (Tree × Bool) := do
  let found ← parse .variableModifiers
  let start ← peek
  let type ← parse .type
  let varargs ← tryAccept ["..."]
  let name ← parse .identifier
  let n ← parse .arrayDimension
  let parameter := Tree.make .formalParameter
    [(.modifiers, Rule.setOf found.modifiers), (.annotations, .list found.annotations),
     (.type, addDimensions type (.dimensions n)), (.name, .text name), (.varargs, .bool varargs)]
  return (parameter.placeAt (positionOf start), varargs)

def formalParameters : Routine (List Tree) := do
  discard <| accept ["("]
  if ← tryAccept [")"] then return []
  let parameters ← many do
    let (parameter, varargs) ← formalParameter
    if varargs then return (parameter, false)
    let more ← tryAccept [","]
    return (parameter, more)
  discard <| accept [")"]
  return parameters

/-- There is no rule for the items of this list. -/
def missingDeclarators : Routine (List Tree) := .fail (.noMethod "Parser" "parse_variable_declator")

def variableDeclarators : Routine (List Tree) := separated "," (parse .variableDeclarator)

/-- A declarator with the given name, and with what follows the name. -/
def declarator (name : Tree) (rest : DeclaratorRest) : Tree :=
  .make .variableDeclarator
    [(.name, name), (.dimensions, .dimensions rest.dimensions), (.initializer, rest.initializer)]

def variableDeclarator : Routine Tree := do
  let name ← parse .identifier
  let rest ← parse .variableDeclaratorRest
  return declarator (.text name) rest

def variableDeclaratorRest : Routine DeclaratorRest := do
  let n ← parse .arrayDimension
  if ← tryAccept ["="] then
    let initializer ← parse .variableInitializer
    return ⟨n, initializer⟩
  else return ⟨n, .null⟩

def variableInitializer : Routine Tree := do
  if ← wouldAccept ["\x7b"] then parse .arrayInitializer else parse .expression

def arrayInitializer : Routine Tree := do
  let initializer (items : List Tree) : Tree :=
    .make .arrayInitializer [(.initializers, .list items)]
  discard <| accept ["\x7b"]
  if ← tryAccept [","] then
    discard <| accept ["\x7d"]
    return initializer []
  if ← tryAccept ["\x7d"] then return initializer []
  let items ← many do
    let item ← parse .variableInitializer
    if !(← wouldAccept ["\x7d"]) then discard <| accept [","]
    let done ← tryAccept ["\x7d"]
    return (item, !done)
  return initializer items

def constantDeclaratorRest : Routine DeclaratorRest := do
  let n ← parse .arrayDimension
  discard <| accept ["="]
  let initializer ← parse .variableInitializer
  return ⟨n, initializer⟩

def constantDeclarator : Routine Tree := do
  let name ← parse .identifier
  let rest ← parse .constantDeclaratorRest
  return declarator (.text name) rest

end JavaSource.Grammar.Body

import JavaSource.Grammar.Expressions

/-!
# Primary expressions

Rules for literals, names, invocations and creators, and for the selectors after them. The word `super`
before `::` stays a token in the tree.
-/

namespace JavaSource.Grammar.Body

def tokenTree (t : Option Token) : Tree :=
  match t with
  | some t => .ofToken t
  | none => .null

def genericInvocation (typeArguments : List Tree) (start : Option Token) : Routine Tree := do
  let invocation ← parse .explicitGenericInvocationSuffix
  return (invocation.placeAt (positionOf start)).put .typeArguments (.list typeArguments)

/-- A name joined to what follows it. An invocation or a member takes the last part of the name, and so does
a class of its type; the rest qualifies it. -/
def qualify (names : List Text) (start : Option Token) (suffix : Tree) : Tree :=
  let last := Tree.text (names.getLast?.getD [])
  let (suffix, qualifier) :=
    if suffix.isA .memberReference || suffix.isA .methodInvocation then
      (suffix.put .member last, names.dropLast)
    else if suffix.isA .classReference then
      (suffix.put .type (.make .referenceType [(.name, last)]), names.dropLast)
    else (suffix, names)
  (suffix.placeAt (positionOf start)).put .qualifier (.text (dotted qualifier))

def named (start : Option Token) : Routine Tree := do
  let first ← parse .identifier
  let more ← whileTrue (wouldAccept [".", .cls .identifier]) do
    discard <| accept ["."]
    parse .identifier
  let suffix ← parse .identifierSuffix
  return qualify (first :: more) start suffix

def primary : Routine Tree := do
  let start ← peek
  if isOf start .literal then
    let literal ← parse .literal
    return literal.placeAt (positionOf start)
  else if isWord start "(" then parse .parExpression
  else if ← tryAccept ["this"] then
    if ← wouldAccept ["("] then
      let arguments ← parse .arguments
      return .make .explicitConstructorInvocation [(.arguments, .list arguments)]
    else return .make .thisReference []
  else if ← wouldAccept ["super", "::"] then
    discard <| accept ["super"]
    return tokenTree start
  else if ← tryAccept ["super"] then parse .superSuffix
  else if ← tryAccept ["new"] then parse .creator
  else if isWord start "<" then
    let typeArguments ← parse .nonwildcardTypeArguments
    if ← tryAccept ["this"] then
      let arguments ← parse .arguments
      return .make .explicitConstructorInvocation
        [(.typeArguments, .list typeArguments), (.arguments, .list arguments)]
    else genericInvocation typeArguments start
  else if isOf start .identifier then named start
  else if isOf start .basicType then
    let type ← parse .basicType
    let n ← parse .arrayDimension
    discard <| accept [".", "class"]
    return .make .classReference [(.type, type.put .dimensions (.dimensions n))]
  else if ← tryAccept ["void"] then
    discard <| accept [".", "class"]
    return .make .voidClassReference []
  else illegal "Expected expression"

def literal : Routine Tree := do
  let value ← accept [.cls .literal]
  return .make .literal [(.value, .text value)]

def parExpression : Routine Tree := do
  discard <| accept ["("]
  let expression ← parse .expression
  discard <| accept [")"]
  return expression

def arguments : Routine (List Tree) := do
  discard <| accept ["("]
  if ← tryAccept [")"] then return []
  let expressions ← separated "," (parse .expression)
  discard <| accept [")"]
  return expressions

def superSuffix : Routine Tree := do
  if ← tryAccept ["."] then
    let typeArguments ← optionalTypeArguments
    let name ← parse .identifier
    if ← wouldAccept ["("] then
      let arguments ← parse .arguments
      return .make .superMethodInvocation
        [(.member, .text name), (.arguments, .list arguments),
         (.typeArguments, .ofList? typeArguments)]
    else return .make .superMemberReference [(.member, .text name)]
  else
    let arguments ← parse .arguments
    return .make .superConstructorInvocation [(.arguments, .list arguments)]

def explicitGenericInvocationSuffix : Routine Tree := do
  if ← tryAccept ["super"] then parse .superSuffix
  else
    let name ← parse .identifier
    let arguments ← parse .arguments
    return .make .methodInvocation [(.member, .text name), (.arguments, .list arguments)]

/-! ## Creators -/

def arrayOf (type : Tree) : Routine Tree := do
  let creator ← parse .arrayCreatorRest
  return creator.put .type type

def creator : Routine Tree := do
  if ← wouldAccept [.cls .basicType] then
    let type ← parse .basicType
    arrayOf type
  else
    let typeArguments ← optionalTypeArguments
    let type ← parse .createdName
    if ← wouldAccept ["["] then
      if typeArguments.any (!·.isEmpty) then
        illegal "Array creator not allowed with generic constructor type arguments"
      else arrayOf type
    else
      let (arguments, body) ← parse .classCreatorRest
      return .make .classCreator
        [(.constructorTypeArguments, .ofList? typeArguments), (.type, type),
         (.arguments, .list arguments), (.body, .ofList? body)]

def createdName : Routine Tree := segments (parse .typeArgumentsOrDiamond)

def classCreatorRest : Routine (List Tree × Option (List Tree)) := do
  let arguments ← parse .arguments
  if ← wouldAccept ["\x7b"] then
    let body ← parse .classBody
    return (arguments, some body)
  else return (arguments, none)

def sizedDimensionNext : Routine Bool := do
  if ← wouldAccept ["["] then
    let empty ← wouldAccept ["[", "]"]
    return !empty
  else return false

def arrayCreatorRest : Routine Tree := do
  if ← wouldAccept ["[", "]"] then
    let n ← parse .arrayDimension
    let initializer ← parse .arrayInitializer
    return .make .arrayCreator [(.dimensions, .dimensions n), (.initializer, initializer)]
  else
    let sizes ← whileTrue sizedDimensionNext do
      discard <| accept ["["]
      let size ← parse .expression
      discard <| accept ["]"]
      return size
    let n ← parse .arrayDimension
    return .make .arrayCreator [(.dimensions, .list (sizes ++ List.replicate n .null))]

def innerCreatorRest : Routine Tree := do
  let typeArguments ← optionalTypeArguments
  let creator ← parse .innerCreator
  return creator.put .constructorTypeArguments (.ofList? typeArguments)

def innerCreator : Routine Tree := do
  let name ← parse .identifier
  let typeArguments ←
    if ← wouldAccept ["<"] then some <$> parse .nonwildcardTypeArgumentsOrDiamond else pure none
  let (arguments, body) ← parse .classCreatorRest
  return .make .innerClassCreator
    [(.type, .make .referenceType [(.name, .text name), (.arguments, .ofList? typeArguments)]),
     (.arguments, .list arguments), (.body, .ofList? body)]

/-! ## What follows an operand -/

def identifierSuffix : Routine Tree := do
  if ← tryAccept ["[", "]"] then
    let n ← parse .arrayDimension
    discard <| accept [".", "class"]
    return .make .classReference
      [(.type, .make .type [(.dimensions, .dimensions (n + 1))])]
  else if ← wouldAccept ["("] then
    let arguments ← parse .arguments
    return .make .methodInvocation [(.arguments, .list arguments)]
  else if ← tryAccept [".", "class"] then return .make .classReference []
  else if ← tryAccept [".", "this"] then return .make .thisReference []
  else if ← wouldAccept [".", "<"] then
    discard take
    parse .explicitGenericInvocation
  else if ← tryAccept [".", "new"] then innerCreatorRest
  else if ← wouldAccept [".", "super", "("] then
    discard <| accept [".", "super"]
    let arguments ← parse .arguments
    return .make .superConstructorInvocation [(.arguments, .list arguments)]
  else return .make .memberReference []

def explicitGenericInvocation : Routine Tree := do
  let typeArguments ← parse .nonwildcardTypeArguments
  let start ← peek
  genericInvocation typeArguments start

def memberSelector : Routine Tree := do
  let start ← peek
  if isOf start .identifier then
    let name ← take
    if ← wouldAccept ["("] then
      let arguments ← parse .arguments
      return .make .methodInvocation [(.member, .text name.value), (.arguments, .list arguments)]
    else return .make .memberReference [(.member, .text name.value)]
  else if ← wouldAccept ["super", "::"] then
    discard <| accept ["super"]
    return tokenTree start
  else if ← wouldAccept ["<"] then parse .explicitGenericInvocation
  else if ← tryAccept ["this"] then return .make .thisReference []
  else if ← tryAccept ["super"] then parse .superSuffix
  else if ← tryAccept ["new"] then innerCreatorRest
  else illegal "Expected selector"

def selector : Routine Tree := do
  if ← tryAccept ["["] then
    let index ← parse .expression
    discard <| accept ["]"]
    return .make .arraySelector [(.index, index)]
  else if ← tryAccept ["."] then memberSelector
  else illegal "Expected selector"

end JavaSource.Grammar.Body

import JavaSource.Grammar.Routine

/-!
# Names and types

Rules for identifiers, types, type arguments and type parameters.
-/

namespace JavaSource.Grammar

def dotted (names : List Text) : Text := Text.join (Text.ofString ".") names

def addDimensions (type : Tree) (further : Tree) : Tree :=
  type.put .dimensions (.list ((type.get .dimensions).items ++ further.items))

namespace Body

def identifier : Routine Text := accept [.cls .identifier]

def qualifiedIdentifier : Routine Text := do
  let names ← separated "." (parse .identifier)
  return dotted names

def qualifiedIdentifierList : Routine (List Text) :=
  separated "," (parse .qualifiedIdentifier)

/-! ## Types -/

def type : Routine Tree := do
  let type ←
    if isOf (← peek) .basicType then parse .basicType
    else if isOf (← peek) .identifier then parse .referenceType
    else illegal "Expected type"
  let n ← parse .arrayDimension
  return type.put .dimensions (.dimensions n)

def basicType : Routine Tree := do
  let name ← accept [.cls .basicType]
  return .make .basicType [(.name, .text name)]

/-- The type of the segments of a dotted type, each with its name and its arguments. -/
def segmentsType : List (Text × Option (List Tree)) → Tree
  | [] => .null
  | (name, arguments) :: rest =>
    .make .referenceType
      [(.name, .text name), (.arguments, .ofList? arguments), (.subType, segmentsType rest)]

/-- A dotted type, the arguments of whose segments are read by the given routine. -/
def segments (arguments : Routine (List Tree)) : Routine Tree := do
  let segments ← separated "." do
    let name ← parse .identifier
    if ← wouldAccept ["<"] then
      let arguments ← arguments
      return (name, some arguments)
    else return (name, none)
  return segmentsType segments

def referenceType : Routine Tree := segments (parse .typeArguments)

/-- A type that may stand as an argument: a primitive type needs a dimension. -/
def argumentType : Routine Tree := do
  let type ←
    if ← wouldAccept [.cls .basicType] then do
      let type ← parse .basicType
      discard <| accept ["[", "]"]
      pure (type.put .dimensions (.dimensions 1))
    else do
      let type ← parse .referenceType
      pure (type.put .dimensions (.dimensions 0))
  let n ← parse .arrayDimension
  return addDimensions type (.dimensions n)

def bracketed (item : Routine Tree) : Routine (List Tree) := do
  discard <| accept ["<"]
  many do
    let x ← item
    if ← tryAccept [">"] then return (x, false)
    discard <| accept [","]
    return (x, true)

def typeArguments : Routine (List Tree) := bracketed (parse .typeArgument)

def typeArgument : Routine Tree := do
  let argument (pattern : Tree) : Routine Tree := do
    let type ← argumentType
    return .make .typeArgument [(.type, type), (.patternType, pattern)]
  if ← tryAccept ["?"] then
    if isAmong (← peek) (Vocabulary.texts ["extends", "super"]) then
      let pattern ← take
      argument (.text pattern.value)
    else return .make .typeArgument [(.patternType, .text "?")]
  else argument .null

def nonwildcardTypeArguments : Routine (List Tree) := do
  discard <| accept ["<"]
  let types ← parse .typeList
  discard <| accept [">"]
  return types.map fun type => .make .typeArgument [(.type, type)]

def typeList : Routine (List Tree) := separated "," argumentType

def typeArgumentsOrDiamond : Routine (List Tree) := do
  if ← tryAccept ["<", ">"] then return []
  parse .typeArguments

def nonwildcardTypeArgumentsOrDiamond : Routine (List Tree) := do
  if ← tryAccept ["<", ">"] then return []
  parse .nonwildcardTypeArguments

def typeParameters : Routine (List Tree) := bracketed (parse .typeParameter)

def typeParameter : Routine Tree := do
  let name ← parse .identifier
  let bounds ←
    if ← tryAccept ["extends"] then
      some <$> separated "&" (parse .referenceType)
    else pure none
  return .make .typeParameter [(.name, .text name), (.supertypes, .ofList? bounds)]

def arrayDimension : Routine Nat := do
  let pairs ← whileTrue (tryAccept ["[", "]"]) (pure ())
  return pairs.length

end Body

end JavaSource.Grammar

import JavaSource.Grammar.Variables

/-!
# Declarations

Rules for types and their members. A member is read in two steps: its modifiers, and then the rest of it by
what comes next. The name and the type of a field or method stand before the part that tells which of the
two it is, so the rule for that part leaves them open and the caller fills them in.
-/

namespace JavaSource.Grammar

/-- The declaration with its modifiers, annotations and documentation. -/
def Modifiers.on (found : Modifiers) (declaration : Tree) : Tree :=
  declaration.put .modifiers (Rule.setOf found.modifiers)
    |>.put .annotations (.list found.annotations)
    |>.put .documentation (.ofText? found.javadoc)

/-- The declaration whose first declarator has the given name. -/
def nameFirst (name : Text) (declaration : Tree) : Tree :=
  match (declaration.get .declarators).items with
  | [] => declaration
  | first :: rest => declaration.put .declarators (.list (first.put .name (.text name) :: rest))

/-- The method with its name and its return type. Dimensions after its parameters belong to the type. -/
def nameMethod (name : Text) (type : Tree) (method : Tree) : Tree :=
  method.put .name (.text name)
    |>.put .returnType (addDimensions type ((method.get .returnType).get .dimensions))

namespace Body

/-! ## Top level -/

def importDeclaration : Routine Tree := do
  discard <| accept ["import"]
  let isStatic ← tryAccept ["static"]
  let names ← many do
    let name ← parse .identifier
    if ← tryAccept ["."] then
      if ← tryAccept ["*"] then
        discard <| accept [";"]
        return ((name, true), false)
      else return ((name, false), true)
    else
      discard <| accept [";"]
      return ((name, false), false)
  return .make .importDeclaration
    [(.path, .text (dotted (names.map (·.1)))), (.isStatic, .bool isStatic),
     (.wildcard, .bool (names.any (·.2)))]

def typeDeclaration : Routine (Option Tree) := do
  if ← tryAccept [";"] then return none
  some <$> parse .classOrInterfaceDeclaration

def classOrInterfaceDeclaration : Routine Tree := do
  let found ← parse .modifiers
  let start ← peek
  let declaration ←
    if isWord start "class" then parse .normalClassDeclaration
    else if isWord start "enum" then parse .enumDeclaration
    else if isWord start "interface" then parse .normalInterfaceDeclaration
    else if ← annotationDeclarationAt 0 then parse .annotationTypeDeclaration
    else illegal "Expected type declaration"
  return found.on (declaration.placeAt (positionOf start))

def optionalTypeParameters : Routine (Option (List Tree)) := do
  if ← wouldAccept ["<"] then some <$> parse .typeParameters else return none

def typesAfter (word : Pattern) : Routine (Option (List Tree)) := do
  if ← tryAccept [word] then some <$> parse .typeList else return none

def normalClassDeclaration : Routine Tree := do
  discard <| accept ["class"]
  let name ← parse .identifier
  let parameters ← optionalTypeParameters
  let parent ← if ← tryAccept ["extends"] then parse .type else pure .null
  let interfaces ← typesAfter "implements"
  let body ← parse .classBody
  return .make .classDeclaration
    [(.name, .text name), (.typeParameters, .ofList? parameters), (.supertypes, parent),
     (.implements, .ofList? interfaces), (.body, .list body)]

def enumDeclaration : Routine Tree := do
  discard <| accept ["enum"]
  let name ← parse .identifier
  let interfaces ← typesAfter "implements"
  let body ← parse .enumBody
  return .make .enumDeclaration
    [(.name, .text name), (.implements, .ofList? interfaces), (.body, body)]

def normalInterfaceDeclaration : Routine Tree := do
  discard <| accept ["interface"]
  let name ← parse .identifier
  let parameters ← optionalTypeParameters
  let parents ← typesAfter "extends"
  let body ← parse .interfaceBody
  return .make .interfaceDeclaration
    [(.name, .text name), (.typeParameters, .ofList? parameters), (.supertypes, .ofList? parents),
     (.body, .list body)]

def annotationTypeDeclaration : Routine Tree := do
  discard <| accept ["@", "interface"]
  let name ← parse .identifier
  let body ← parse .annotationTypeBody
  return .make .annotationDeclaration [(.name, .text name), (.body, .list body)]

/-! ## Members of classes -/

def optionalThrows : Routine Tree := do
  if ← tryAccept ["throws"] then
    let names ← parse .qualifiedIdentifierList
    return .ofTexts names
  else return .null

/-- The body of a method, or nothing where a semicolon stands for it. -/
def methodBody : Routine Tree := do
  if ← wouldAccept ["\x7b"] then
    let statements ← parse .block
    return .list statements
  else
    discard <| accept [";"]
    return .null

def voidMethodRest : Routine Tree := do
  let parameters ← parse .formalParameters
  let throws ← optionalThrows
  let body ← methodBody
  return .make .methodDeclaration
    [(.parameters, .list parameters), (.throws, throws), (.body, body)]

/-- A method with a return type, from its parameters on. The dimensions after the parameters are kept in a
type of its own. -/
def typedMethodRest : Routine Tree := do
  let parameters ← parse .formalParameters
  let n ← parse .arrayDimension
  let throws ← optionalThrows
  let body ← methodBody
  return .make .methodDeclaration
    [(.parameters, .list parameters), (.throws, throws), (.body, body),
     (.returnType, .make .type [(.dimensions, .dimensions n)])]

def classBody : Routine (List Tree) := do
  discard <| accept ["\x7b"]
  let declarations ← manyUntil "\x7d" (parse .classBodyDeclaration)
  discard <| accept ["\x7d"]
  return declarations.filter Tree.isTrue

def classBodyDeclaration : Routine Tree := do
  discard peek
  if ← tryAccept [";"] then return .null
  if ← wouldAccept ["static", "\x7b"] then
    discard <| accept ["static"]
    let statements ← parse .block
    return .list statements
  if ← wouldAccept ["\x7b"] then
    let statements ← parse .block
    return .list statements
  parse .memberDeclaration

def voidMethod (rest : Routine Tree) : Routine Tree := do
  let name ← parse .identifier
  let method ← rest
  return method.put .name (.text name)

def constructor : Routine Tree := do
  let name ← parse .identifier
  let declaration ← parse .constructorDeclaratorRest
  return declaration.put .name (.text name)

def memberDeclaration : Routine Tree := do
  let found ← parse .modifiers
  let start ← peek
  let member ←
    if ← tryAccept ["void"] then voidMethod (parse .voidMethodDeclaratorRest)
    else if isWord start "<" then parse .genericMethodOrConstructorDeclaration
    else if isWord start "class" then parse .normalClassDeclaration
    else if isWord start "enum" then parse .enumDeclaration
    else if isWord start "interface" then parse .normalInterfaceDeclaration
    else if ← annotationDeclarationAt 0 then parse .annotationTypeDeclaration
    else if ← wouldAccept [.cls .identifier, "("] then constructor
    else parse .methodOrFieldDeclaration
  return found.on (member.placeAt (positionOf start))

/-- The member with its name and its type, whichever of method and field it is. -/
def nameMember (name : Text) (type : Tree) (member : Tree) : Tree :=
  if member.isA .methodDeclaration then nameMethod name type member
  else nameFirst name (member.put .type type)

def methodOrFieldDeclaration : Routine Tree := do
  let type ← parse .type
  let name ← parse .identifier
  let member ← parse .methodOrFieldRest
  return nameMember name type member

def methodOrFieldRest : Routine Tree := do
  discard peek
  if ← wouldAccept ["("] then parse .methodDeclaratorRest
  else
    let field ← parse .fieldDeclaratorsRest
    discard <| accept [";"]
    return field

def afterCommas (item : Routine Tree) : Routine (List Tree) := whileTrue (tryAccept [","]) item

def fieldDeclaratorsRest : Routine Tree := do
  let rest ← parse .variableDeclaratorRest
  let more ← afterCommas (parse .variableDeclarator)
  return .make .fieldDeclaration [(.declarators, .list (declarator .null rest :: more))]

def methodDeclaratorRest : Routine Tree := typedMethodRest

def voidMethodDeclaratorRest : Routine Tree := voidMethodRest

def constructorDeclaratorRest : Routine Tree := do
  let parameters ← parse .formalParameters
  let throws ← optionalThrows
  let body ← parse .block
  return .make .constructorDeclaration
    [(.parameters, .list parameters), (.throws, throws), (.body, .list body)]

def genericMethodOrConstructorDeclaration : Routine Tree := do
  let parameters ← parse .typeParameters
  let start ← peek
  let method ←
    if ← wouldAccept [.cls .identifier, "("] then constructor
    else if ← tryAccept ["void"] then voidMethod (parse .voidMethodDeclaratorRest)
    else do
      let type ← parse .type
      let name ← parse .identifier
      let method ← parse .methodDeclaratorRest
      pure (nameMethod name type method)
  return (method.placeAt (positionOf start)).put .typeParameters (.list parameters)

/-! ## Members of interfaces -/

def interfaceBody : Routine (List Tree) := do
  discard <| accept ["\x7b"]
  let declarations ← manyUntil "\x7d" (parse .interfaceBodyDeclaration)
  discard <| accept ["\x7d"]
  return declarations.filterMap id

def interfaceBodyDeclaration : Routine (Option Tree) := do
  if ← tryAccept [";"] then return none
  let found ← parse .modifiers
  let declaration ← parse .interfaceMemberDeclaration
  return some (found.on declaration)

def interfaceMemberDeclaration : Routine Tree := do
  let start ← peek
  let declaration ←
    if ← wouldAccept ["class"] then parse .normalClassDeclaration
    else if ← wouldAccept ["interface"] then parse .normalInterfaceDeclaration
    else if ← wouldAccept ["enum"] then parse .enumDeclaration
    else if ← annotationDeclarationAt 0 then parse .annotationTypeDeclaration
    else if ← wouldAccept ["<"] then parse .interfaceGenericMethodDeclarator
    else if ← tryAccept ["void"] then voidMethod (parse .voidInterfaceMethodDeclaratorRest)
    else parse .interfaceMethodOrFieldDeclaration
  return declaration.placeAt (positionOf start)

def interfaceMethodOrFieldDeclaration : Routine Tree := do
  let type ← parse .type
  let name ← parse .identifier
  let member ← parse .interfaceMethodOrFieldRest
  return nameMember name type member

def interfaceMethodOrFieldRest : Routine Tree := do
  if ← wouldAccept ["("] then parse .interfaceMethodDeclaratorRest
  else
    let constants ← parse .constantDeclaratorsRest
    discard <| accept [";"]
    return constants

def constantDeclaratorsRest : Routine Tree := do
  let rest ← parse .constantDeclaratorRest
  let more ← afterCommas (parse .constantDeclarator)
  return .make .constantDeclaration [(.declarators, .list (declarator .null rest :: more))]

def interfaceMethodDeclaratorRest : Routine Tree := typedMethodRest

def voidInterfaceMethodDeclaratorRest : Routine Tree := voidMethodRest

def interfaceGenericMethodDeclarator : Routine Tree := do
  let parameters ← parse .typeParameters
  let isVoid ← tryAccept ["void"]
  let type ← if isVoid then pure .null else parse .type
  let name ← parse .identifier
  let method ← parse .interfaceMethodDeclaratorRest
  return method.put .name (.text name)
    |>.put .returnType type
    |>.put .typeParameters (.list parameters)

/-! ## Bodies of enumerations and annotation types -/

def enumBody : Routine Tree := do
  discard <| accept ["\x7b"]
  let noConstants ← tryAccept [","]
  let constants ←
    if noConstants then pure []
    else
      .loop [] (fun acc => do
        if ← wouldAccept [";"] then return (acc, false)
        if ← wouldAccept ["\x7d"] then return (acc, false)
        let constant ← parse .enumConstant
        let more ← tryAccept [","]
        return (acc ++ [constant], more)) .pure
  let declarations ←
    if ← tryAccept [";"] then manyUntil "\x7d" (parse .classBodyDeclaration) else pure []
  discard <| accept ["\x7d"]
  return .make .enumBody
    [(.constants, .list constants), (.declarations, .list (declarations.filter Tree.isTrue))]

def enumConstant : Routine Tree := do
  let start ← peek
  let annotations ← if ← wouldAccept [.cls .atSign] then parse .annotations else pure []
  let name ← parse .identifier
  let arguments ← if ← wouldAccept ["("] then some <$> parse .arguments else pure none
  let body ← if ← wouldAccept ["\x7b"] then some <$> parse .classBody else pure none
  return .make .enumConstantDeclaration
    [(.annotations, .list annotations), (.name, .text name), (.arguments, .ofList? arguments),
     (.body, .ofList? body), (.documentation, .ofText? (javadocOf start))]

def annotationTypeBody : Routine (List Tree) := do
  discard <| accept ["\x7b"]
  let declarations ← parse .annotationTypeElementDeclarations
  discard <| accept ["\x7d"]
  return declarations

def annotationTypeElementDeclarations : Routine (List Tree) :=
  manyUntil "\x7d" (parse .annotationTypeElementDeclaration)

/-- An element of an annotation type, or a constant in it. -/
def annotationTypeElement : Routine Tree := do
  let type ← parse .type
  let name ← parse .identifier
  let declaration ← parse .annotationMethodOrConstantRest
  discard <| accept [";"]
  if declaration.isA .annotationMethod then
    return declaration.put .name (.text name) |>.put .returnType type
  else return nameFirst name (declaration.put .type type)

def annotationTypeElementDeclaration : Routine Tree := do
  let found ← parse .modifiers
  let start ← peek
  let declaration ←
    if ← wouldAccept ["class"] then parse .normalClassDeclaration
    else if ← wouldAccept ["interface"] then parse .normalInterfaceDeclaration
    else if ← wouldAccept ["enum"] then parse .enumDeclaration
    else if ← annotationDeclarationAt 0 then parse .annotationTypeDeclaration
    else annotationTypeElement
  return found.on (declaration.placeAt (positionOf start))

def annotationMethodOrConstantRest : Routine Tree := do
  if ← tryAccept ["("] then
    discard <| accept [")"]
    let n ← parse .arrayDimension
    let value ← if ← tryAccept ["default"] then parse .elementValue else pure .null
    return .make .annotationMethod [(.dimensions, .dimensions n), (.defaultValue, value)]
  else parse .constantDeclaratorsRest

end Body

end JavaSource.Grammar

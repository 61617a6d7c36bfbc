import JavaSource.Grammar.Variables

/-!
# Statements

Rules for blocks and statements. Whether a statement declares a variable cannot be told by a fixed number of
tokens, so a statement that starts with a name is read as a declaration first, and as a statement after a
syntax error.
-/

namespace JavaSource.Grammar.Body

/-! ## Blocks -/

def block : Routine (List Tree) := do
  discard <| accept ["\x7b"]
  let statements ← manyUntil "\x7d" (parse .blockStatement)
  discard <| accept ["\x7d"]
  return statements

/-- Where the modifiers and annotations before a statement end. -/
inductive Lead where
  | declaration
  /-- The first token after them, and whether there are annotations among them. -/
  | passed (next : Option Token) (annotated : Bool)

/-- The index behind the dots and names of a qualified name whose first dot would be at `i`. -/
def pastDots (i : Nat) : Routine Nat :=
  .loop i (fun i => do
    let t ← lookAt i
    if isWord t "." then return (i + 2, true) else return (i, false)) .pure

/-- The index behind the parenthesis that closes one opened before `i`. -/
def pastParentheses (i : Nat) : Routine Nat :=
  .loop (i, 1)
    (fun (i, depth) => do
      let t ← lookAt i
      let depth := if isWord t "(" then depth + 1 else if isWord t ")" then depth - 1 else depth
      return ((i + 1, depth), depth != 0))
    fun (i, _) => .pure i

/-- Looks past modifiers and annotations. The token behind an annotation without arguments is passed over
unseen. -/
def lead : Routine Lead :=
  .loop ((0 : Nat), Lead.passed none false)
    (fun (i, found) => do
      let annotated := match found with
        | .passed _ annotated => annotated
        | .declaration => false
      let t ← lookAt i
      if isOf t .modifier then
        if isWord t "final" then return ((i + 1, .passed t annotated), true)
        else return ((i, .declaration), false)
      else if ← annotationAt i then
        let i ← pastDots (i + 2)
        let u ← lookAt i
        if isWord u "(" then
          let i ← pastParentheses (i + 1)
          return ((i, .passed t true), true)
        else return ((i + 1, .passed t true), true)
      else return ((i, .passed t annotated), false))
    fun (_, found) => .pure found

def localVariableAt (start : Option Token) : Routine Tree := do
  let statement ← parse .localVariableDeclarationStatement
  return statement.placeAt (positionOf start)

def blockStatement : Routine Tree := do
  if ← wouldAccept [.cls .identifier, ":"] then return ← parse .statement
  if ← wouldAccept ["synchronized"] then return ← parse .statement
  match ← lead with
  | .declaration => parse .classOrInterfaceDeclaration
  | .passed start annotated =>
    if isAmong start (Vocabulary.texts ["class", "enum", "interface", "@"]) then
      parse .classOrInterfaceDeclaration
    else if annotated || isOf start .basicType then localVariableAt start
    else if !isOf start .identifier then parse .statement
    else .attempt (localVariableAt start) .pure (parse .statement)

def localVariableDeclarationStatement : Routine Tree := do
  let found ← parse .variableModifiers
  let type ← parse .type
  let declarators ← parse .variableDeclarators
  discard <| accept [";"]
  return .make .localVariableDeclaration
    [(.modifiers, Rule.setOf found.modifiers), (.annotations, .list found.annotations),
     (.type, type), (.declarators, .list declarators)]

/-! ## Statements -/

def ifRest : Routine Tree := do
  let condition ← parse .parExpression
  let thenStatement ← parse .statement
  let elseStatement ← if ← tryAccept ["else"] then parse .statement else pure .null
  return .make .ifStatement
    [(.condition, condition), (.thenStatement, thenStatement), (.elseStatement, elseStatement)]

def assertRest : Routine Tree := do
  let condition ← parse .expression
  let value ← if ← tryAccept [":"] then parse .expression else pure .null
  discard <| accept [";"]
  return .make .assertStatement [(.condition, condition), (.value, value)]

def switchRest : Routine Tree := do
  let expression ← parse .parExpression
  discard <| accept ["\x7b"]
  let cases ← parse .switchBlockStatementGroups
  discard <| accept ["\x7d"]
  return .make .switchStatement [(.expression, expression), (.cases, .list cases)]

def whileRest : Routine Tree := do
  let condition ← parse .parExpression
  let body ← parse .statement
  return .make .whileStatement [(.condition, condition), (.body, body)]

def doRest : Routine Tree := do
  let body ← parse .statement
  discard <| accept ["while"]
  let condition ← parse .parExpression
  discard <| accept [";"]
  return .make .doStatement [(.condition, condition), (.body, body)]

def forStatementRest : Routine Tree := do
  discard <| accept ["("]
  let control ← parse .forControl
  discard <| accept [")"]
  let body ← parse .statement
  return .make .forStatement [(.control, control), (.body, body)]

def jumpRest (kind : Kind) : Routine Tree := do
  let label ←
    if ← wouldAccept [.cls .identifier] then Tree.text <$> parse .identifier else pure .null
  discard <| accept [";"]
  return .make kind [(.goto, label)]

def returnRest : Routine Tree := do
  let value ← if ← wouldAccept [";"] then pure .null else parse .expression
  discard <| accept [";"]
  return .make .returnStatement [(.expression, value)]

def throwRest : Routine Tree := do
  let value ← parse .expression
  discard <| accept [";"]
  return .make .throwStatement [(.expression, value)]

def synchronizedRest : Routine Tree := do
  let lock ← parse .parExpression
  let block ← parse .block
  return .make .synchronizedStatement [(.lock, lock), (.block, .list block)]

/-- The statement after `try`. Without resources it has to catch something or to end with `finally`. -/
def tryRest : Routine Tree := do
  let plain ← wouldAccept ["\x7b"]
  let resources ← if plain then pure none else some <$> parse .resourceSpecification
  let block ← parse .block
  let catches ← if ← wouldAccept ["catch"] then some <$> parse .catches else pure none
  let finallyBlock ← if ← tryAccept ["finally"] then some <$> parse .block else pure none
  if plain && catches.isNone && finallyBlock.isNone then illegal "Expected catch/finally block"
  else
    return .make .tryStatement
      [(.resources, .ofList? resources), (.block, .list block), (.catches, .ofList? catches),
       (.finallyBlock, .ofList? finallyBlock)]

def statementForm : Routine Tree := do
  if ← wouldAccept ["\x7b"] then
    let statements ← parse .block
    return .make .blockStatement [(.statements, .list statements)]
  else if ← tryAccept [";"] then return .make .statement []
  else if ← wouldAccept [.cls .identifier, ":"] then
    let label ← parse .identifier
    discard <| accept [":"]
    let statement ← parse .statement
    return statement.put .label (.text label)
  else if ← tryAccept ["if"] then ifRest
  else if ← tryAccept ["assert"] then assertRest
  else if ← tryAccept ["switch"] then switchRest
  else if ← tryAccept ["while"] then whileRest
  else if ← tryAccept ["do"] then doRest
  else if ← tryAccept ["for"] then forStatementRest
  else if ← tryAccept ["break"] then jumpRest .breakStatement
  else if ← tryAccept ["continue"] then jumpRest .continueStatement
  else if ← tryAccept ["return"] then returnRest
  else if ← tryAccept ["throw"] then throwRest
  else if ← tryAccept ["synchronized"] then synchronizedRest
  else if ← tryAccept ["try"] then tryRest
  else
    let expression ← parse .expression
    discard <| accept [";"]
    return .make .statementExpression [(.expression, expression)]

def statement : Routine Tree := do
  let start ← peek
  let statement ← statementForm
  return statement.placeAt (positionOf start)

/-! ## Parts of `try` -/

def catches : Routine (List Tree) :=
  many do
    let clause ← parse .catchClause
    let more ← wouldAccept ["catch"]
    return (clause, more)

/-- The modifiers and annotations of the parameter are read and not kept. -/
def catchClause : Routine Tree := do
  discard <| accept ["catch", "("]
  discard <| parse .variableModifiers
  let types ← separated "|" (parse .qualifiedIdentifier)
  let name ← parse .identifier
  discard <| accept [")"]
  let block ← parse .block
  return .make .catchClause
    [(.parameter, .make .catchClauseParameter [(.types, .ofTexts types), (.name, .text name)]),
     (.block, .list block)]

def resourceSpecification : Routine (List Tree) := do
  discard <| accept ["("]
  many do
    let resource ← parse .resource
    if !(← wouldAccept [")"]) then discard <| accept [";"]
    let done ← tryAccept [")"]
    return (resource, !done)

def resource : Routine Tree := do
  let found ← parse .variableModifiers
  let type ← parse .referenceType
  let n ← parse .arrayDimension
  let name ← parse .identifier
  let m ← parse .arrayDimension
  discard <| accept ["="]
  let value ← parse .expression
  return .make .tryResource
    [(.modifiers, Rule.setOf found.modifiers), (.annotations, .list found.annotations),
     (.type, type.put .dimensions (.dimensions (n + m))), (.name, .text name), (.value, value)]

/-! ## Parts of `switch` and `for` -/

def labelWords : List Text := Vocabulary.texts ["case", "default"]

def switchBlockStatementGroups : Routine (List Tree) :=
  whileTrue (do return isAmong (← peek) labelWords) (parse .switchBlockStatementGroup)

/-- One label of a group: the value after `case`, and none after `default`. -/
def switchLabel : Routine (List Tree) := do
  let word ← take
  if isWord (some word) "case" then
    let value ←
      if ← wouldAccept [.cls .identifier, ":"] then Tree.text <$> parse .identifier
      else parse .expression
    discard <| accept [":"]
    return [value]
  else if isWord (some word) "default" then
    discard <| accept [":"]
    return []
  else illegal "Expected switch case"

def switchBlockStatementGroup : Routine Tree := do
  let labels ← many do
    let label ← switchLabel
    return (label, isAmong (← peek) labelWords)
  let statements ← whileTrue (do return !isAmong (← peek) (Text.ofString "\x7d" :: labelWords))
    (parse .blockStatement)
  return .make .switchStatementCase
    [(.caseLabels, .list labels.flatten), (.statements, .list statements)]

/-- The condition and the update of a loop, each of which may be missing. -/
def forConditionAndUpdate : Routine (Tree × Tree) := do
  let condition ← if ← wouldAccept [";"] then pure .null else parse .expression
  discard <| accept [";"]
  let update ← if ← wouldAccept [")"] then pure .null else Tree.list <$> parse .forInitOrUpdate
  return (condition, update)

def forParts : Routine Tree := do
  let initial ← if ← wouldAccept [";"] then pure .null else Tree.list <$> parse .forInitOrUpdate
  discard <| accept [";"]
  let (condition, update) ← forConditionAndUpdate
  return .make .forControl [(.initial, initial), (.condition, condition), (.update, update)]

def forControl : Routine Tree := .attempt (parse .forVarControl) .pure forParts

def forVarControl : Routine Tree := do
  let found ← parse .variableModifiers
  let type ← parse .type
  let name ← parse .identifier
  let n ← parse .arrayDimension
  let variableOf (declarators : List Tree) : Tree :=
    .make .variableDeclaration
      [(.modifiers, Rule.setOf found.modifiers), (.annotations, .list found.annotations),
       (.type, addDimensions type (.dimensions n)), (.declarators, .list declarators)]
  match ← parse .forVarControlRest with
  | .each iterable =>
    return .make .enhancedForControl
      [(.loopVariable, variableOf [.make .variableDeclarator [(.name, .text name)]]),
       (.iterable, iterable)]
  | .counted declarators condition update =>
    let named := match declarators with
      | [] => []
      | first :: rest => first.put .name (.text name) :: rest
    return .make .forControl
      [(.initial, variableOf named), (.condition, condition), (.update, update)]

def forVarControlRest : Routine ForRest := do
  if ← tryAccept [":"] then
    let iterable ← parse .expression
    return .each iterable
  let declarators ←
    if ← wouldAccept [";"] then pure [.make .variableDeclarator []]
    else parse .forVariableDeclaratorRest
  discard <| accept [";"]
  let (condition, update) ← forConditionAndUpdate
  return .counted declarators condition update

def forVariableDeclaratorRest : Routine (List Tree) := do
  let initializer ← if ← tryAccept ["="] then parse .variableInitializer else pure .null
  let more ← whileTrue (tryAccept [","]) (parse .variableDeclarator)
  return .make .variableDeclarator [(.initializer, initializer)] :: more

def forInitOrUpdate : Routine (List Tree) := separated "," (parse .expression)

end JavaSource.Grammar.Body

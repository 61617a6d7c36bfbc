import JavaSource.Grammar.Operators
import JavaSource.Grammar.Variables

/-!
# Expressions

Rules for expressions. What follows an opening parenthesis is read as a lambda expression first, then as a
cast, and then as an expression in parentheses. Whatever an operand turns out to be, it gets the operators
before and after it and its selectors as attributes.
-/

namespace JavaSource.Grammar.Body

def expression : Routine Tree := do
  let target ← parse .expressionOne
  if isAmong (← peek) Vocabulary.assignmentOperators then
    let operator ← take
    let value ← parse .expression
    return .make .assignment [(.target, target), (.type, .text operator.value), (.value, value)]
  else return target

def expressionOne : Routine Tree := do
  let first ← parse .expressionTwo
  if ← tryAccept ["?"] then
    let ifTrue ← parse .expression
    discard <| accept [":"]
    let ifFalse ← parse .expressionOne
    return .make .ternaryExpression
      [(.condition, first), (.ifTrue, ifTrue), (.ifFalse, ifFalse)]
  else if ← wouldAccept ["->"] then
    let body ← parse .lambdaMethodBody
    return .make .lambdaExpression [(.parameters, .list [first]), (.body, body)]
  else if ← tryAccept ["::"] then
    let (method, typeArguments) ← parse .methodReference
    return .make .methodReference
      [(.expression, first), (.method, method), (.typeArguments, .list typeArguments)]
  else return first

def binaryOperatorNext : Routine Bool := do
  let t ← peek
  return isAmong t Vocabulary.infixOperators || isWord t "instanceof"

def expressionTwo : Routine Tree := do
  let first ← parse .expressionThree
  if ← binaryOperatorNext then
    let rest ← parse .expressionTwoRest
    match buildOperation 0 (first :: rest) with
    | .ok tree => return tree
    | .error failure => .fail failure
  else return first

/-- A binary operator with the operand after it. After `instanceof` comes a type. -/
def furtherOperand : Routine (List Tree) := do
  if ← tryAccept ["instanceof"] then
    let type ← parse .type
    return [Tree.text "instanceof", type]
  else
    let operator ← parse .infixOperator
    let operand ← parse .expressionThree
    return [Tree.text operator, operand]

def expressionTwoRest : Routine (List Tree) := do
  let parts ← whileTrue binaryOperatorNext furtherOperand
  return parts.flatten

def infixOperator : Routine Text := do
  let operator ← accept [.cls .operator]
  if !Vocabulary.infixOperators.contains operator then illegal "Expected infix operator"
  else if operator == Text.ofString ">" then
    if ← tryAccept [">"] then
      if ← tryAccept [">"] then return ">>>"
      return ">>"
    return operator
  else return operator

/-! ## Operands -/

/-- A cast, which is never told from an expression in parentheses before it is read. -/
def castExpression : Routine Tree := do
  discard <| accept ["("]
  let type ← parse .type
  discard <| accept [")"]
  let expression ← parse .expressionThree
  return .make .cast [(.type, type), (.expression, expression)]

/-- Whether a selector comes next. There has to be a next token. -/
def selectorStart (t : Option Token) : Routine Bool :=
  match t with
  | none => .fail .endInText
  | some t => .pure (isAmong (some t) (Vocabulary.texts ["[", "."]))

def operand (operators : List Text) : Routine Tree := do
  let primary ← parse .primary
  let selectors ← .loop [] (fun acc => do
    let t ← peek
    if ← selectorStart t then
      let selector ← parse .selector
      return (acc ++ [selector.placeAt (positionOf t)], true)
    else return (acc, false)) .pure
  let postfixes ← .loop [] (fun acc => do
    let t ← peek
    if isAmong t Vocabulary.postfixOperators then
      let operator ← take
      return (acc ++ [operator.value], true)
    else return (acc, false)) .pure
  return primary.put .prefixOperators (.ofTexts operators)
    |>.put .selectors (.list selectors)
    |>.put .postfixOperators (.ofTexts postfixes)

def expressionThree : Routine Tree := do
  let operators ← whileTrue (do return isAmong (← peek) Vocabulary.prefixOperators) do
    let operator ← take
    return operator.value
  if ← wouldAccept ["("] then
    .attempt (parse .lambdaExpression) .pure (.attempt castExpression .pure (operand operators))
  else operand operators

/-! ## Method references and lambda expressions -/

def optionalTypeArguments : Routine (Option (List Tree)) := do
  if ← wouldAccept ["<"] then some <$> parse .nonwildcardTypeArguments else return none

def methodReference : Routine (Tree × List Tree) := do
  let typeArguments ← optionalTypeArguments
  let method ←
    if ← wouldAccept ["new"] then do
      let word ← accept ["new"]
      pure (Tree.make .memberReference [(.member, .text word)])
    else parse .expression
  return (method, typeArguments.getD [])

def lambdaExpression : Routine Tree := do
  let parameters ←
    if ← wouldAccept ["(", .cls .identifier, ","] then do
      discard <| accept ["("]
      let parameters ← manyUntil ")" do
        let name ← parse .identifier
        discard <| tryAccept [","]
        return .make .inferredFormalParameter [(.name, .text name)]
      discard <| accept [")"]
      pure parameters
    else parse .formalParameters
  let body ← parse .lambdaMethodBody
  return .make .lambdaExpression [(.parameters, .list parameters), (.body, body)]

def lambdaMethodBody : Routine Tree := do
  discard <| accept ["->"]
  if ← wouldAccept ["\x7b"] then Tree.list <$> parse .block else parse .expression

end JavaSource.Grammar.Body

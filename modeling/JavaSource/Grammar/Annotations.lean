import JavaSource.Grammar.Types

/-!
# Modifiers and annotations

Rules for the modifiers and annotations before a declaration, and for the elements of an annotation.
-/

namespace JavaSource.Grammar

/-- The modifiers with one more, unless it is among them. -/
def addModifier (m : Text) (modifiers : List Text) : List Text :=
  if modifiers.contains m then modifiers else modifiers ++ [m]

namespace Body

def placedAnnotation (start : Option Token) : Routine Tree := do
  let a ← parse .annotationUse
  return a.placeAt (positionOf start)

/-- One more modifier or annotation, if one comes next. The given routine takes a modifier, if one does. -/
def modifierNext (modifier : Routine (Option Text)) (acc : VariableModifiers) :
    Routine (VariableModifiers × Bool) := do
  let start ← peek
  match ← modifier with
  | some m => return ({ acc with modifiers := addModifier m acc.modifiers }, true)
  | none =>
    if ← annotationAt 0 then
      let a ← placedAnnotation start
      return ({ acc with annotations := acc.annotations ++ [a] }, true)
    else return (acc, false)

def modifiersBy (modifier : Routine (Option Text)) : Routine VariableModifiers :=
  .loop ⟨[], []⟩ (modifierNext modifier) .pure

/-- Any modifier, if one comes next. -/
def anyModifier : Routine (Option Text) := do
  if ← wouldAccept [.cls .modifier] then
    let m ← accept [.cls .modifier]
    return some m
  else return none

def finalModifier : Routine (Option Text) := do
  if ← tryAccept ["final"] then return some "final" else return none

def modifiers : Routine Modifiers := do
  let first ← peek
  let found ← modifiersBy anyModifier
  return ⟨found.modifiers, found.annotations, javadocOf first⟩

def variableModifiers : Routine VariableModifiers := modifiersBy finalModifier

def annotations : Routine (List Tree) :=
  many do
    let start ← peek
    let a ← placedAnnotation start
    let more ← annotationAt 0
    return (a, more)

def annotationUse : Routine Tree := do
  discard <| accept ["@"]
  let name ← parse .qualifiedIdentifier
  let element ←
    if ← tryAccept ["("] then do
      let element ← if ← wouldAccept [")"] then pure .null else parse .annotationElement
      discard <| accept [")"]
      pure element
    else pure .null
  return .make .annotationUse [(.name, .text name), (.element, element)]

def annotationElement : Routine Tree := do
  if ← wouldAccept [.cls .identifier, "="] then
    let pairs ← parse .elementValuePairs
    return .list pairs
  parse .elementValue

def elementValuePairs : Routine (List Tree) :=
  separated "," do
    let start ← peek
    let pair ← parse .elementValuePair
    return pair.placeAt (positionOf start)

def elementValuePair : Routine Tree := do
  let name ← parse .identifier
  discard <| accept ["="]
  let value ← parse .elementValue
  return .make .elementValuePair [(.name, .text name), (.value, value)]

def elementValue : Routine Tree := do
  let start ← peek
  if ← annotationAt 0 then placedAnnotation start
  else if ← wouldAccept ["\x7b"] then parse .elementValueArrayInitializer
  else parse .expressionOne

def elementValueArrayInitializer : Routine Tree := do
  discard <| accept ["\x7b"]
  if ← tryAccept ["\x7d"] then return .list []
  let values ← parse .elementValues
  discard <| tryAccept [","]
  discard <| accept ["\x7d"]
  return .make .elementArrayValue [(.values, .list values)]

def elementValues : Routine (List Tree) :=
  many do
    let value ← parse .elementValue
    if ← wouldAccept ["\x7d"] then return (value, false)
    if ← wouldAccept [",", "\x7d"] then return (value, false)
    discard <| accept [","]
    return (value, true)

end Body

end JavaSource.Grammar

import JavaSource.Parser.Entry
import JavaSource.Tree.Comparison
import JavaSource.Tree.Members
import JavaSource.Workload.Sample
import JavaSource.Workload.Scale

/-!
# Workloads on the trees of a sample

What is found in the tree of a sample whose types stand there several times over.
-/

namespace JavaSource.Workload

def sampleTree (copies : Int) : Except SourceFailure Tree :=
  Entry.unit.parse (.text (scaleSource sample copies (some sampleMarker)))

def topLevelKinds (copies : Int) : Except SourceFailure (List String) := do
  let tree ← sampleTree copies
  return (tree.get .types).items.map Tree.typeName

structure Census where
  nodes : Nat
  methods : Nat
  literals : Nat
  placedStatements : Nat
  typesEqual : Except TreeFailure Bool
  typeEqualsLiteral : Except TreeFailure Bool
  literalEqualsItself : Except TreeFailure Bool
  firstFields : Except TreeFailure Nat
  firstMethods : Except TreeFailure Nat
  firstConstructors : Except TreeFailure Nat
  firstLiteral : Tree

def census (tree : Tree) : Except TreeFailure Census := do
  let visits ← tree.walk
  let ofKind (k : Kind) : List Visit := visits.filter fun v => v.node.isA k
  let literal := ((ofKind .literal).head?.map (·.node)).getD .null
  let types := (tree.get .types).items
  let first := types.headD .null
  return {
    nodes := visits.length
    methods := (ofKind .methodDeclaration).length
    literals := (ofKind .literal).length
    placedStatements := ((ofKind .statement).filter fun v => v.node.position?.isSome).length
    typesEqual := first.equals ((types.drop 1).headD .null)
    typeEqualsLiteral := first.equals literal
    literalEqualsItself := literal.equalsItself
    firstFields := first.fieldNames.map List.length
    firstMethods := first.methodNames.map List.length
    firstConstructors := first.constructorNames.map List.length
    firstLiteral := literal.get .value }

end JavaSource.Workload

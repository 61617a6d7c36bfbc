import JavaSource.Tree.Walk

/-!
# Members of type declarations

The fields, methods and constructors that a type declaration holds directly. Those of an enumeration stand in
a part of its body; its constructors are looked for in the body itself, where none can be.
-/

namespace JavaSource

/-- What is asked of a tree: a result or a failure. -/
abbrev Inspected := Except TreeFailure

namespace Tree

/-- Where the fields and methods of a type declaration are looked for. -/
def memberList (declaration : Tree) : Inspected (List Tree) := do
  let body := declaration.get .body
  if declaration.isA .enumDeclaration then
    let declarations ← body.require .declarations
    declarations.elements
  else body.elements

def fields (declaration : Tree) : Inspected (List Tree) := do
  return (← declaration.memberList).filter (·.isA .fieldDeclaration)

def methods (declaration : Tree) : Inspected (List Tree) := do
  return (← declaration.memberList).filter (·.isA .methodDeclaration)

def constructors (declaration : Tree) : Inspected (List Tree) := do
  return (← (declaration.get .body).elements).filter (·.isA .constructorDeclaration)

def fieldNames (declaration : Tree) : Inspected (List Tree) := do
  (← declaration.fields).mapM fun field => do
    let declarators ← (field.get .declarators).elements
    let names ← declarators.mapM (·.require .name)
    return .list names

def methodNames (declaration : Tree) : Inspected (List Tree) := do
  return (← declaration.methods).map (·.get .name)

def constructorNames (declaration : Tree) : Inspected (List Tree) := do
  return (← declaration.constructors).map (·.get .name)

structure MemberNames where
  kind : String
  name : Tree
  fields : Inspected (List Tree)
  methods : Inspected (List Tree)
  constructors : Inspected (List Tree)

/-- The members of each type declaration in a tree, in the order of a walk. -/
def members (t : Tree) : Inspected (List MemberNames) := do
  let visits ← t.walk
  return (visits.filter (·.node.isA .typeDeclaration)).map fun v =>
    { kind := v.node.typeName
      name := v.node.get .name
      fields := v.node.fieldNames
      methods := v.node.methodNames
      constructors := v.node.constructorNames }

end Tree

end JavaSource

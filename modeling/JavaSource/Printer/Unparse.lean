import JavaSource.Printer.Expressions
import JavaSource.Printer.Statements
import JavaSource.Printer.Types

/-!
# Printing trees

`unparse` prints a tree by the name of what it is. Many kinds of trees cannot be printed. Recursion goes from
a tree to its parts, so the size of a tree bounds its depth.
-/

namespace JavaSource

mutual

def Tree.size : Tree → Nat
  | .list xs | .tuple xs | .set xs => sizeOfItems xs + 1
  | .token _ value _ _ fields _ => value.size + sizeOfFields fields + 1
  | .node _ fields _ => sizeOfFields fields + 1
  | _ => 1

def Tree.sizeOfItems : List Tree → Nat
  | [] => 0
  | x :: xs => x.size + sizeOfItems xs

def Tree.sizeOfFields : List (Attr × Tree) → Nat
  | [] => 0
  | (_, x) :: rest => x.size + sizeOfFields rest

end

namespace Printer

/-- The name of a type in small letters, with underscores between its words. -/
def snakeCase (name : String) : String :=
  String.ofList (go false name.toList)
where
  /-- Writes the letters after one that did or did not end a word. -/
  go (afterSmall : Bool) : List Char → List Char
    | [] => []
    | c :: rest =>
      if c.isUpper then
        (if afterSmall then ['_', c.toLower] else [c.toLower]) ++ go false rest
      else c :: go true rest

def nodeForm (print : Print) (n : Nat) (t : Tree) : Kind → Option (PrintM Tree)
  | .compilationUnit => text (compilationUnit print t)
  | .classDeclaration => text (classDeclaration print t)
  | .methodDeclaration => text (methodDeclaration print t)
  | .constructorDeclaration => text (methodDeclaration print t)
  | .formalParameter => text (formalParameter print t)
  | .referenceType => some (referenceType print t)
  | .statementExpression => text (statementExpression print t)
  | .methodInvocation => text (methodInvocation print t)
  | .literal => some (literal t)
  | .lambdaExpression => text (lambdaExpression print t)
  | .memberReference => text (memberReference print t)
  | .binaryOperation => text (binaryOperation print t)
  | .localVariableDeclaration => text (localVariableDeclaration print t)
  | .variableDeclaration => text (variableDeclaration print t)
  | .variableDeclarator => text (variableDeclarator print t)
  | .cast => text (cast print t)
  | .ifStatement => text (ifStatement print n t)
  | .returnStatement => text (returnStatement print t)
  | .blockStatement => text (blockStatement print t)
  | .basicType => text (basicType t)
  | .inferredFormalParameter => some (inferredFormalParameter t)
  | .methodReference => some (methodReference print t)
  | .typeArgument => text (typeArgument print t)
  | .interfaceDeclaration => text (interfaceDeclaration print t)
  | .classCreator => text (classCreator print t)
  | .annotationUse => text (annotationUse t)
  | .fieldDeclaration => text (fieldDeclaration print t)
  | .packageDeclaration => text (packageDeclaration t)
  | .importDeclaration => text (importDeclaration t)
  | .tryStatement => text (tryStatement print t)
  | .tryResource => text (tryResource print t)
  | .arrayInitializer => text (arrayInitializer print t)
  | .arraySelector => text (arraySelector print t)
  | .catchClause => text (catchClause print t)
  | .catchClauseParameter => text (catchClauseParameter t)
  | .assignment => some (assignment print t)
  | .forStatement => text (forStatement print t)
  | .enhancedForControl => text (enhancedForControl print t)
  | .classReference => text (classReference print t)
  | .arrayCreator => text (arrayCreator print t)
  | _ => none
where
  text (action : PrintM Text) : Option (PrintM Tree) := some (Tree.text <$> action)

def tokenForm (t : Tree) : TokenClass → Option (PrintM Tree)
  | .keyword | .literal => some (literal t)
  | .basicType => some (Tree.text <$> basicType t)
  | .atSign => some (Tree.text <$> annotationUse t)
  | _ => none

def form (print : Print) (n : Nat) (t : Tree) : PrintM Tree :=
  let found := match t with
    | .node kind _ _ => nodeForm print n t kind
    | .token cls .. => tokenForm t cls
    | _ => none
  found.getD (throw (.noAttribute "Generator" (snakeCase t.typeName)))

def printWithin : Nat → Tree → PrintM Tree
  | 0, _ => throw .wrongType
  | n + 1, t => form (printWithin n) (n + 1) t

def print (t : Tree) : PrintM Tree := printWithin t.size t

/-- Prints a tree at a level of indentation; the level after it is given too. -/
def printAt (indent : Int) (t : Tree) : Except TreeFailure Tree × Int :=
  StateT.run (ExceptT.run (print t)) indent

end Printer

def unparse (t : Tree) : Except TreeFailure Tree := (Printer.printAt 0 t).1

end JavaSource

import JavaSource.Tree.Attr

/-!
# Kinds of trees

The kinds of nodes of a syntax tree, the attributes each kind declares, and how kinds nest: a class
declaration is a type declaration, and that is a declaration and documented.
-/

namespace JavaSource

inductive Kind where
  | node
  | compilationUnit
  | importDeclaration
  | documented
  | declaration
  | typeDeclaration
  | packageDeclaration
  | classDeclaration
  | enumDeclaration
  | interfaceDeclaration
  | annotationDeclaration
  | type
  | basicType
  | referenceType
  | typeArgument
  | typeParameter
  | annotationUse
  | elementValuePair
  | elementArrayValue
  | member
  | methodDeclaration
  | fieldDeclaration
  | constructorDeclaration
  | constantDeclaration
  | arrayInitializer
  | variableDeclaration
  | localVariableDeclaration
  | variableDeclarator
  | formalParameter
  | inferredFormalParameter
  | statement
  | ifStatement
  | whileStatement
  | doStatement
  | forStatement
  | assertStatement
  | breakStatement
  | continueStatement
  | returnStatement
  | throwStatement
  | synchronizedStatement
  | tryStatement
  | switchStatement
  | blockStatement
  | statementExpression
  | tryResource
  | catchClause
  | catchClauseParameter
  | switchStatementCase
  | forControl
  | enhancedForControl
  | expression
  | assignment
  | ternaryExpression
  | binaryOperation
  | cast
  | methodReference
  | lambdaExpression
  | primary
  | literal
  | thisReference
  | memberReference
  | invocation
  | explicitConstructorInvocation
  | superConstructorInvocation
  | methodInvocation
  | superMethodInvocation
  | superMemberReference
  | arraySelector
  | classReference
  | voidClassReference
  | creator
  | arrayCreator
  | classCreator
  | innerClassCreator
  | enumBody
  | enumConstantDeclaration
  | annotationMethod
  deriving DecidableEq, Repr

namespace Kind

def all : List Kind :=
  [node, compilationUnit, importDeclaration, documented, declaration, typeDeclaration,
   packageDeclaration, classDeclaration, enumDeclaration, interfaceDeclaration,
   annotationDeclaration, type, basicType, referenceType, typeArgument, typeParameter,
   annotationUse, elementValuePair, elementArrayValue, member, methodDeclaration,
   fieldDeclaration, constructorDeclaration, constantDeclaration, arrayInitializer,
   variableDeclaration, localVariableDeclaration, variableDeclarator, formalParameter,
   inferredFormalParameter, statement, ifStatement, whileStatement, doStatement, forStatement,
   assertStatement, breakStatement, continueStatement, returnStatement, throwStatement,
   synchronizedStatement, tryStatement, switchStatement, blockStatement, statementExpression,
   tryResource, catchClause, catchClauseParameter, switchStatementCase, forControl,
   enhancedForControl, expression, assignment, ternaryExpression, binaryOperation, cast,
   methodReference, lambdaExpression, primary, literal, thisReference, memberReference,
   invocation, explicitConstructorInvocation, superConstructorInvocation, methodInvocation,
   superMethodInvocation, superMemberReference, arraySelector, classReference,
   voidClassReference, creator, arrayCreator, classCreator, innerClassCreator, enumBody,
   enumConstantDeclaration, annotationMethod]

def name : Kind → String
  | node => "Node"
  | compilationUnit => "CompilationUnit"
  | importDeclaration => "Import"
  | documented => "Documented"
  | declaration => "Declaration"
  | typeDeclaration => "TypeDeclaration"
  | packageDeclaration => "PackageDeclaration"
  | classDeclaration => "ClassDeclaration"
  | enumDeclaration => "EnumDeclaration"
  | interfaceDeclaration => "InterfaceDeclaration"
  | annotationDeclaration => "AnnotationDeclaration"
  | type => "Type"
  | basicType => "BasicType"
  | referenceType => "ReferenceType"
  | typeArgument => "TypeArgument"
  | typeParameter => "TypeParameter"
  | annotationUse => "Annotation"
  | elementValuePair => "ElementValuePair"
  | elementArrayValue => "ElementArrayValue"
  | member => "Member"
  | methodDeclaration => "MethodDeclaration"
  | fieldDeclaration => "FieldDeclaration"
  | constructorDeclaration => "ConstructorDeclaration"
  | constantDeclaration => "ConstantDeclaration"
  | arrayInitializer => "ArrayInitializer"
  | variableDeclaration => "VariableDeclaration"
  | localVariableDeclaration => "LocalVariableDeclaration"
  | variableDeclarator => "VariableDeclarator"
  | formalParameter => "FormalParameter"
  | inferredFormalParameter => "InferredFormalParameter"
  | statement => "Statement"
  | ifStatement => "IfStatement"
  | whileStatement => "WhileStatement"
  | doStatement => "DoStatement"
  | forStatement => "ForStatement"
  | assertStatement => "AssertStatement"
  | breakStatement => "BreakStatement"
  | continueStatement => "ContinueStatement"
  | returnStatement => "ReturnStatement"
  | throwStatement => "ThrowStatement"
  | synchronizedStatement => "SynchronizedStatement"
  | tryStatement => "TryStatement"
  | switchStatement => "SwitchStatement"
  | blockStatement => "BlockStatement"
  | statementExpression => "StatementExpression"
  | tryResource => "TryResource"
  | catchClause => "CatchClause"
  | catchClauseParameter => "CatchClauseParameter"
  | switchStatementCase => "SwitchStatementCase"
  | forControl => "ForControl"
  | enhancedForControl => "EnhancedForControl"
  | expression => "Expression"
  | assignment => "Assignment"
  | ternaryExpression => "TernaryExpression"
  | binaryOperation => "BinaryOperation"
  | cast => "Cast"
  | methodReference => "MethodReference"
  | lambdaExpression => "LambdaExpression"
  | primary => "Primary"
  | literal => "Literal"
  | thisReference => "This"
  | memberReference => "MemberReference"
  | invocation => "Invocation"
  | explicitConstructorInvocation => "ExplicitConstructorInvocation"
  | superConstructorInvocation => "SuperConstructorInvocation"
  | methodInvocation => "MethodInvocation"
  | superMethodInvocation => "SuperMethodInvocation"
  | superMemberReference => "SuperMemberReference"
  | arraySelector => "ArraySelector"
  | classReference => "ClassReference"
  | voidClassReference => "VoidClassReference"
  | creator => "Creator"
  | arrayCreator => "ArrayCreator"
  | classCreator => "ClassCreator"
  | innerClassCreator => "InnerClassCreator"
  | enumBody => "EnumBody"
  | enumConstantDeclaration => "EnumConstantDeclaration"
  | annotationMethod => "AnnotationMethod"

def ofName? (s : String) : Option Kind := all.find? (·.name == s)

def typeDeclarationAttrs : List Attr := [.modifiers, .annotations, .documentation, .name, .body]

/-- What every member of a class, with its own documentation, has. -/
def memberAttrs : List Attr := [.documentation, .modifiers, .annotations]

def primaryAttrs : List Attr := [.prefixOperators, .postfixOperators, .qualifier, .selectors]

def invocationAttrs : List Attr := primaryAttrs ++ [.typeArguments, .arguments]

def creatorAttrs : List Attr := primaryAttrs ++ [.type]

/-- The attributes that a node of this kind always has, in order. -/
def attrs : Kind → List Attr
  | node => []
  | compilationUnit => [.package, .imports, .types]
  | importDeclaration => [.path, .isStatic, .wildcard]
  | documented => [.documentation]
  | declaration => [.modifiers, .annotations]
  | typeDeclaration => typeDeclarationAttrs
  | packageDeclaration => [.modifiers, .annotations, .documentation, .name]
  | classDeclaration => typeDeclarationAttrs ++ [.typeParameters, .supertypes, .implements]
  | enumDeclaration => typeDeclarationAttrs ++ [.implements]
  | interfaceDeclaration => typeDeclarationAttrs ++ [.typeParameters, .supertypes]
  | annotationDeclaration => typeDeclarationAttrs
  | type => [.name, .dimensions]
  | basicType => [.name, .dimensions]
  | referenceType => [.name, .dimensions, .arguments, .subType]
  | typeArgument => [.type, .patternType]
  | typeParameter => [.name, .supertypes]
  | annotationUse => [.name, .element]
  | elementValuePair => [.name, .value]
  | elementArrayValue => [.values]
  | member => [.documentation]
  | methodDeclaration =>
    memberAttrs ++ [.typeParameters, .returnType, .name, .parameters, .throws, .body]
  | fieldDeclaration => memberAttrs ++ [.type, .declarators]
  | constructorDeclaration =>
    [.modifiers, .annotations, .documentation, .typeParameters, .name, .parameters, .throws, .body]
  | constantDeclaration => memberAttrs ++ [.type, .declarators]
  | arrayInitializer => [.initializers]
  | variableDeclaration => [.modifiers, .annotations, .type, .declarators]
  | localVariableDeclaration => [.modifiers, .annotations, .type, .declarators]
  | variableDeclarator => [.name, .dimensions, .initializer]
  | formalParameter => [.modifiers, .annotations, .type, .name, .varargs]
  | inferredFormalParameter => [.name]
  | statement => [.label]
  | ifStatement => [.label, .condition, .thenStatement, .elseStatement]
  | whileStatement => [.label, .condition, .body]
  | doStatement => [.label, .condition, .body]
  | forStatement => [.label, .control, .body]
  | assertStatement => [.label, .condition, .value]
  | breakStatement => [.label, .goto]
  | continueStatement => [.label, .goto]
  | returnStatement => [.label, .expression]
  | throwStatement => [.label, .expression]
  | synchronizedStatement => [.label, .lock, .block]
  | tryStatement => [.label, .resources, .block, .catches, .finallyBlock]
  | switchStatement => [.label, .expression, .cases]
  | blockStatement => [.label, .statements]
  | statementExpression => [.label, .expression]
  | tryResource => [.modifiers, .annotations, .type, .name, .value]
  | catchClause => [.label, .parameter, .block]
  | catchClauseParameter => [.modifiers, .annotations, .types, .name]
  | switchStatementCase => [.caseLabels, .statements]
  | forControl => [.initial, .condition, .update]
  | enhancedForControl => [.loopVariable, .iterable]
  | expression => []
  | assignment => [.target, .value, .type]
  | ternaryExpression => [.condition, .ifTrue, .ifFalse]
  | binaryOperation => [.operator, .leftOperand, .rightOperand]
  | cast => [.type, .expression]
  | methodReference => [.expression, .method, .typeArguments]
  | lambdaExpression => [.parameters, .body]
  | primary => primaryAttrs
  | literal => primaryAttrs ++ [.value]
  | thisReference => primaryAttrs
  | memberReference => primaryAttrs ++ [.member]
  | invocation => invocationAttrs
  | explicitConstructorInvocation => invocationAttrs
  | superConstructorInvocation => invocationAttrs
  | methodInvocation => invocationAttrs ++ [.member]
  | superMethodInvocation => invocationAttrs ++ [.member]
  | superMemberReference => primaryAttrs ++ [.member]
  | arraySelector => [.index]
  | classReference => primaryAttrs ++ [.type]
  | voidClassReference => primaryAttrs ++ [.type]
  | creator => creatorAttrs
  | arrayCreator => creatorAttrs ++ [.dimensions, .initializer]
  | classCreator => creatorAttrs ++ [.constructorTypeArguments, .arguments, .body]
  | innerClassCreator => creatorAttrs ++ [.constructorTypeArguments, .arguments, .body]
  | enumBody => [.constants, .declarations]
  | enumConstantDeclaration => [.modifiers, .annotations, .documentation, .name, .arguments, .body]
  | annotationMethod => [.modifiers, .annotations, .name, .returnType, .dimensions, .defaultValue]

/-- The kinds a kind belongs to, itself first. -/
def lineage : Kind → List Kind
  | node => [node]
  | compilationUnit => [compilationUnit, node]
  | importDeclaration => [importDeclaration, node]
  | documented => [documented, node]
  | declaration => [declaration, node]
  | typeDeclaration => [typeDeclaration, declaration, documented, node]
  | packageDeclaration => [packageDeclaration, declaration, documented, node]
  | classDeclaration => [classDeclaration, typeDeclaration, declaration, documented, node]
  | enumDeclaration => [enumDeclaration, typeDeclaration, declaration, documented, node]
  | interfaceDeclaration => [interfaceDeclaration, typeDeclaration, declaration, documented, node]
  | annotationDeclaration => [annotationDeclaration, typeDeclaration, declaration, documented, node]
  | type => [type, node]
  | basicType => [basicType, type, node]
  | referenceType => [referenceType, type, node]
  | typeArgument => [typeArgument, node]
  | typeParameter => [typeParameter, node]
  | annotationUse => [annotationUse, node]
  | elementValuePair => [elementValuePair, node]
  | elementArrayValue => [elementArrayValue, node]
  | member => [member, documented, node]
  | methodDeclaration => [methodDeclaration, member, documented, declaration, node]
  | fieldDeclaration => [fieldDeclaration, member, documented, declaration, node]
  | constructorDeclaration => [constructorDeclaration, declaration, documented, node]
  | constantDeclaration =>
    [constantDeclaration, fieldDeclaration, member, documented, declaration, node]
  | arrayInitializer => [arrayInitializer, node]
  | variableDeclaration => [variableDeclaration, declaration, node]
  | localVariableDeclaration => [localVariableDeclaration, variableDeclaration, declaration, node]
  | variableDeclarator => [variableDeclarator, node]
  | formalParameter => [formalParameter, declaration, node]
  | inferredFormalParameter => [inferredFormalParameter, node]
  | statement => [statement, node]
  | ifStatement => [ifStatement, statement, node]
  | whileStatement => [whileStatement, statement, node]
  | doStatement => [doStatement, statement, node]
  | forStatement => [forStatement, statement, node]
  | assertStatement => [assertStatement, statement, node]
  | breakStatement => [breakStatement, statement, node]
  | continueStatement => [continueStatement, statement, node]
  | returnStatement => [returnStatement, statement, node]
  | throwStatement => [throwStatement, statement, node]
  | synchronizedStatement => [synchronizedStatement, statement, node]
  | tryStatement => [tryStatement, statement, node]
  | switchStatement => [switchStatement, statement, node]
  | blockStatement => [blockStatement, statement, node]
  | statementExpression => [statementExpression, statement, node]
  | tryResource => [tryResource, declaration, node]
  | catchClause => [catchClause, statement, node]
  | catchClauseParameter => [catchClauseParameter, declaration, node]
  | switchStatementCase => [switchStatementCase, node]
  | forControl => [forControl, node]
  | enhancedForControl => [enhancedForControl, node]
  | expression => [expression, node]
  | assignment => [assignment, expression, node]
  | ternaryExpression => [ternaryExpression, expression, node]
  | binaryOperation => [binaryOperation, expression, node]
  | cast => [cast, expression, node]
  | methodReference => [methodReference, expression, node]
  | lambdaExpression => [lambdaExpression, expression, node]
  | primary => [primary, expression, node]
  | literal => [literal, primary, expression, node]
  | thisReference => [thisReference, primary, expression, node]
  | memberReference => [memberReference, primary, expression, node]
  | invocation => [invocation, primary, expression, node]
  | explicitConstructorInvocation =>
    [explicitConstructorInvocation, invocation, primary, expression, node]
  | superConstructorInvocation =>
    [superConstructorInvocation, invocation, primary, expression, node]
  | methodInvocation => [methodInvocation, invocation, primary, expression, node]
  | superMethodInvocation => [superMethodInvocation, invocation, primary, expression, node]
  | superMemberReference => [superMemberReference, primary, expression, node]
  | arraySelector => [arraySelector, expression, node]
  | classReference => [classReference, primary, expression, node]
  | voidClassReference => [voidClassReference, classReference, primary, expression, node]
  | creator => [creator, primary, expression, node]
  | arrayCreator => [arrayCreator, creator, primary, expression, node]
  | classCreator => [classCreator, creator, primary, expression, node]
  | innerClassCreator => [innerClassCreator, creator, primary, expression, node]
  | enumBody => [enumBody, node]
  | enumConstantDeclaration => [enumConstantDeclaration, declaration, documented, node]
  | annotationMethod => [annotationMethod, declaration, node]

/-- Whether every node of kind `k` is also of kind `l`. -/
def isA (k l : Kind) : Bool := k.lineage.contains l

end Kind

end JavaSource

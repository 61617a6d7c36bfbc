import JavaSource.Grammar.Declarations
import JavaSource.Grammar.Primaries
import JavaSource.Grammar.Statements

/-!
# What each rule does

The routine of every rule. A routine calls other rules by name only, so the rules need no recursion here.
-/

namespace JavaSource.Grammar

def Rule.body : (r : Rule) → Routine r.Result
  | .identifier => Body.identifier
  | .qualifiedIdentifier => Body.qualifiedIdentifier
  | .qualifiedIdentifierList => Body.qualifiedIdentifierList
  | .importDeclaration => Body.importDeclaration
  | .typeDeclaration => Body.typeDeclaration
  | .classOrInterfaceDeclaration => Body.classOrInterfaceDeclaration
  | .normalClassDeclaration => Body.normalClassDeclaration
  | .enumDeclaration => Body.enumDeclaration
  | .normalInterfaceDeclaration => Body.normalInterfaceDeclaration
  | .annotationTypeDeclaration => Body.annotationTypeDeclaration
  | .type => Body.type
  | .basicType => Body.basicType
  | .referenceType => Body.referenceType
  | .typeArguments => Body.typeArguments
  | .typeArgument => Body.typeArgument
  | .nonwildcardTypeArguments => Body.nonwildcardTypeArguments
  | .typeList => Body.typeList
  | .typeArgumentsOrDiamond => Body.typeArgumentsOrDiamond
  | .nonwildcardTypeArgumentsOrDiamond => Body.nonwildcardTypeArgumentsOrDiamond
  | .typeParameters => Body.typeParameters
  | .typeParameter => Body.typeParameter
  | .arrayDimension => Body.arrayDimension
  | .modifiers => Body.modifiers
  | .annotations => Body.annotations
  | .annotationUse => Body.annotationUse
  | .annotationElement => Body.annotationElement
  | .elementValuePairs => Body.elementValuePairs
  | .elementValuePair => Body.elementValuePair
  | .elementValue => Body.elementValue
  | .elementValueArrayInitializer => Body.elementValueArrayInitializer
  | .elementValues => Body.elementValues
  | .classBody => Body.classBody
  | .classBodyDeclaration => Body.classBodyDeclaration
  | .memberDeclaration => Body.memberDeclaration
  | .methodOrFieldDeclaration => Body.methodOrFieldDeclaration
  | .methodOrFieldRest => Body.methodOrFieldRest
  | .fieldDeclaratorsRest => Body.fieldDeclaratorsRest
  | .methodDeclaratorRest => Body.methodDeclaratorRest
  | .voidMethodDeclaratorRest => Body.voidMethodDeclaratorRest
  | .constructorDeclaratorRest => Body.constructorDeclaratorRest
  | .genericMethodOrConstructorDeclaration => Body.genericMethodOrConstructorDeclaration
  | .interfaceBody => Body.interfaceBody
  | .interfaceBodyDeclaration => Body.interfaceBodyDeclaration
  | .interfaceMemberDeclaration => Body.interfaceMemberDeclaration
  | .interfaceMethodOrFieldDeclaration => Body.interfaceMethodOrFieldDeclaration
  | .interfaceMethodOrFieldRest => Body.interfaceMethodOrFieldRest
  | .constantDeclaratorsRest => Body.constantDeclaratorsRest
  | .constantDeclaratorRest => Body.constantDeclaratorRest
  | .constantDeclarator => Body.constantDeclarator
  | .interfaceMethodDeclaratorRest => Body.interfaceMethodDeclaratorRest
  | .voidInterfaceMethodDeclaratorRest => Body.voidInterfaceMethodDeclaratorRest
  | .interfaceGenericMethodDeclarator => Body.interfaceGenericMethodDeclarator
  | .formalParameters => Body.formalParameters
  | .variableModifiers => Body.variableModifiers
  | .missingDeclarators => Body.missingDeclarators
  | .variableDeclarators => Body.variableDeclarators
  | .variableDeclarator => Body.variableDeclarator
  | .variableDeclaratorRest => Body.variableDeclaratorRest
  | .variableInitializer => Body.variableInitializer
  | .arrayInitializer => Body.arrayInitializer
  | .block => Body.block
  | .blockStatement => Body.blockStatement
  | .localVariableDeclarationStatement => Body.localVariableDeclarationStatement
  | .statement => Body.statement
  | .catches => Body.catches
  | .catchClause => Body.catchClause
  | .resourceSpecification => Body.resourceSpecification
  | .resource => Body.resource
  | .switchBlockStatementGroups => Body.switchBlockStatementGroups
  | .switchBlockStatementGroup => Body.switchBlockStatementGroup
  | .forControl => Body.forControl
  | .forVarControl => Body.forVarControl
  | .forVarControlRest => Body.forVarControlRest
  | .forVariableDeclaratorRest => Body.forVariableDeclaratorRest
  | .forInitOrUpdate => Body.forInitOrUpdate
  | .expression => Body.expression
  | .expressionOne => Body.expressionOne
  | .expressionTwo => Body.expressionTwo
  | .expressionTwoRest => Body.expressionTwoRest
  | .expressionThree => Body.expressionThree
  | .methodReference => Body.methodReference
  | .lambdaExpression => Body.lambdaExpression
  | .lambdaMethodBody => Body.lambdaMethodBody
  | .infixOperator => Body.infixOperator
  | .primary => Body.primary
  | .literal => Body.literal
  | .parExpression => Body.parExpression
  | .arguments => Body.arguments
  | .superSuffix => Body.superSuffix
  | .explicitGenericInvocationSuffix => Body.explicitGenericInvocationSuffix
  | .creator => Body.creator
  | .createdName => Body.createdName
  | .classCreatorRest => Body.classCreatorRest
  | .arrayCreatorRest => Body.arrayCreatorRest
  | .identifierSuffix => Body.identifierSuffix
  | .explicitGenericInvocation => Body.explicitGenericInvocation
  | .innerCreator => Body.innerCreator
  | .selector => Body.selector
  | .enumBody => Body.enumBody
  | .enumConstant => Body.enumConstant
  | .annotationTypeBody => Body.annotationTypeBody
  | .annotationTypeElementDeclarations => Body.annotationTypeElementDeclarations
  | .annotationTypeElementDeclaration => Body.annotationTypeElementDeclaration
  | .annotationMethodOrConstantRest => Body.annotationMethodOrConstantRest

end JavaSource.Grammar

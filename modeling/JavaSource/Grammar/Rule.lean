import JavaSource.Tree.Basic

/-!
# The rules of the grammar

A rule reads one construct of the language and gives a result of a type of its own: most give a tree,
some a text, a list of trees or several values. What each rule does is the matter of `Rule.body`.
-/

namespace JavaSource.Grammar

/-- The modifiers, the annotations and the documentation of a declaration. -/
structure Modifiers where
  modifiers : List Text
  annotations : List Tree
  javadoc : Option Text

/-- The modifiers and the annotations of a variable. -/
structure VariableModifiers where
  modifiers : List Text
  annotations : List Tree

/-- What follows the name in the declaration of a variable. -/
structure DeclaratorRest where
  dimensions : Nat
  initializer : Tree

/-- What follows the first variable in the head of a loop. -/
inductive ForRest where
  | each (iterable : Tree)
  /-- All declared variables, the condition and the update. -/
  | counted (declarators : List Tree) (condition update : Tree)

inductive Rule where
  | identifier
  | qualifiedIdentifier
  | qualifiedIdentifierList
  | importDeclaration
  | typeDeclaration
  | classOrInterfaceDeclaration
  | normalClassDeclaration
  | enumDeclaration
  | normalInterfaceDeclaration
  | annotationTypeDeclaration
  | type
  | basicType
  | referenceType
  | typeArguments
  | typeArgument
  | nonwildcardTypeArguments
  | typeList
  | typeArgumentsOrDiamond
  | nonwildcardTypeArgumentsOrDiamond
  | typeParameters
  | typeParameter
  | arrayDimension
  | modifiers
  | annotations
  | annotationUse
  | annotationElement
  | elementValuePairs
  | elementValuePair
  | elementValue
  | elementValueArrayInitializer
  | elementValues
  | classBody
  | classBodyDeclaration
  | memberDeclaration
  | methodOrFieldDeclaration
  | methodOrFieldRest
  | fieldDeclaratorsRest
  | methodDeclaratorRest
  | voidMethodDeclaratorRest
  | constructorDeclaratorRest
  | genericMethodOrConstructorDeclaration
  | interfaceBody
  | interfaceBodyDeclaration
  | interfaceMemberDeclaration
  | interfaceMethodOrFieldDeclaration
  | interfaceMethodOrFieldRest
  | constantDeclaratorsRest
  | constantDeclaratorRest
  | constantDeclarator
  | interfaceMethodDeclaratorRest
  | voidInterfaceMethodDeclaratorRest
  | interfaceGenericMethodDeclarator
  | formalParameters
  | variableModifiers
  | missingDeclarators
  | variableDeclarators
  | variableDeclarator
  | variableDeclaratorRest
  | variableInitializer
  | arrayInitializer
  | block
  | blockStatement
  | localVariableDeclarationStatement
  | statement
  | catches
  | catchClause
  | resourceSpecification
  | resource
  | switchBlockStatementGroups
  | switchBlockStatementGroup
  | forControl
  | forVarControl
  | forVarControlRest
  | forVariableDeclaratorRest
  | forInitOrUpdate
  | expression
  | expressionOne
  | expressionTwo
  | expressionTwoRest
  | expressionThree
  | methodReference
  | lambdaExpression
  | lambdaMethodBody
  | infixOperator
  | primary
  | literal
  | parExpression
  | arguments
  | superSuffix
  | explicitGenericInvocationSuffix
  | creator
  | createdName
  | classCreatorRest
  | arrayCreatorRest
  | identifierSuffix
  | explicitGenericInvocation
  | innerCreator
  | selector
  | enumBody
  | enumConstant
  | annotationTypeBody
  | annotationTypeElementDeclarations
  | annotationTypeElementDeclaration
  | annotationMethodOrConstantRest
  deriving DecidableEq, Repr

namespace Rule

def all : List Rule :=
  [identifier, qualifiedIdentifier, qualifiedIdentifierList, importDeclaration, typeDeclaration,
   classOrInterfaceDeclaration, normalClassDeclaration, enumDeclaration,
   normalInterfaceDeclaration, annotationTypeDeclaration, type, basicType, referenceType,
   typeArguments, typeArgument, nonwildcardTypeArguments, typeList, typeArgumentsOrDiamond,
   nonwildcardTypeArgumentsOrDiamond, typeParameters, typeParameter, arrayDimension, modifiers,
   annotations, annotationUse, annotationElement, elementValuePairs, elementValuePair,
   elementValue, elementValueArrayInitializer, elementValues, classBody, classBodyDeclaration,
   memberDeclaration, methodOrFieldDeclaration, methodOrFieldRest, fieldDeclaratorsRest,
   methodDeclaratorRest, voidMethodDeclaratorRest, constructorDeclaratorRest,
   genericMethodOrConstructorDeclaration, interfaceBody, interfaceBodyDeclaration,
   interfaceMemberDeclaration, interfaceMethodOrFieldDeclaration, interfaceMethodOrFieldRest,
   constantDeclaratorsRest, constantDeclaratorRest, constantDeclarator,
   interfaceMethodDeclaratorRest, voidInterfaceMethodDeclaratorRest,
   interfaceGenericMethodDeclarator, formalParameters, variableModifiers, missingDeclarators,
   variableDeclarators, variableDeclarator, variableDeclaratorRest, variableInitializer,
   arrayInitializer, block, blockStatement, localVariableDeclarationStatement, statement,
   catches, catchClause, resourceSpecification, resource, switchBlockStatementGroups,
   switchBlockStatementGroup, forControl, forVarControl, forVarControlRest,
   forVariableDeclaratorRest, forInitOrUpdate, expression, expressionOne, expressionTwo,
   expressionTwoRest, expressionThree, methodReference, lambdaExpression, lambdaMethodBody,
   infixOperator, primary, literal, parExpression, arguments, superSuffix,
   explicitGenericInvocationSuffix, creator, createdName, classCreatorRest, arrayCreatorRest,
   identifierSuffix, explicitGenericInvocation, innerCreator, selector, enumBody, enumConstant,
   annotationTypeBody, annotationTypeElementDeclarations, annotationTypeElementDeclaration,
   annotationMethodOrConstantRest]

/-- The method that reads by this rule, as a trace names it. -/
def name : Rule → String
  | identifier => "parse_identifier"
  | qualifiedIdentifier => "parse_qualified_identifier"
  | qualifiedIdentifierList => "parse_qualified_identifier_list"
  | importDeclaration => "parse_import_declaration"
  | typeDeclaration => "parse_type_declaration"
  | classOrInterfaceDeclaration => "parse_class_or_interface_declaration"
  | normalClassDeclaration => "parse_normal_class_declaration"
  | enumDeclaration => "parse_enum_declaration"
  | normalInterfaceDeclaration => "parse_normal_interface_declaration"
  | annotationTypeDeclaration => "parse_annotation_type_declaration"
  | type => "parse_type"
  | basicType => "parse_basic_type"
  | referenceType => "parse_reference_type"
  | typeArguments => "parse_type_arguments"
  | typeArgument => "parse_type_argument"
  | nonwildcardTypeArguments => "parse_nonwildcard_type_arguments"
  | typeList => "parse_type_list"
  | typeArgumentsOrDiamond => "parse_type_arguments_or_diamond"
  | nonwildcardTypeArgumentsOrDiamond => "parse_nonwildcard_type_arguments_or_diamond"
  | typeParameters => "parse_type_parameters"
  | typeParameter => "parse_type_parameter"
  | arrayDimension => "parse_array_dimension"
  | modifiers => "parse_modifiers"
  | annotations => "parse_annotations"
  | annotationUse => "parse_annotation"
  | annotationElement => "parse_annotation_element"
  | elementValuePairs => "parse_element_value_pairs"
  | elementValuePair => "parse_element_value_pair"
  | elementValue => "parse_element_value"
  | elementValueArrayInitializer => "parse_element_value_array_initializer"
  | elementValues => "parse_element_values"
  | classBody => "parse_class_body"
  | classBodyDeclaration => "parse_class_body_declaration"
  | memberDeclaration => "parse_member_declaration"
  | methodOrFieldDeclaration => "parse_method_or_field_declaraction"
  | methodOrFieldRest => "parse_method_or_field_rest"
  | fieldDeclaratorsRest => "parse_field_declarators_rest"
  | methodDeclaratorRest => "parse_method_declarator_rest"
  | voidMethodDeclaratorRest => "parse_void_method_declarator_rest"
  | constructorDeclaratorRest => "parse_constructor_declarator_rest"
  | genericMethodOrConstructorDeclaration => "parse_generic_method_or_constructor_declaration"
  | interfaceBody => "parse_interface_body"
  | interfaceBodyDeclaration => "parse_interface_body_declaration"
  | interfaceMemberDeclaration => "parse_interface_member_declaration"
  | interfaceMethodOrFieldDeclaration => "parse_interface_method_or_field_declaration"
  | interfaceMethodOrFieldRest => "parse_interface_method_or_field_rest"
  | constantDeclaratorsRest => "parse_constant_declarators_rest"
  | constantDeclaratorRest => "parse_constant_declarator_rest"
  | constantDeclarator => "parse_constant_declarator"
  | interfaceMethodDeclaratorRest => "parse_interface_method_declarator_rest"
  | voidInterfaceMethodDeclaratorRest => "parse_void_interface_method_declarator_rest"
  | interfaceGenericMethodDeclarator => "parse_interface_generic_method_declarator"
  | formalParameters => "parse_formal_parameters"
  | variableModifiers => "parse_variable_modifiers"
  | missingDeclarators => "parse_variable_declators"
  | variableDeclarators => "parse_variable_declarators"
  | variableDeclarator => "parse_variable_declarator"
  | variableDeclaratorRest => "parse_variable_declarator_rest"
  | variableInitializer => "parse_variable_initializer"
  | arrayInitializer => "parse_array_initializer"
  | block => "parse_block"
  | blockStatement => "parse_block_statement"
  | localVariableDeclarationStatement => "parse_local_variable_declaration_statement"
  | statement => "parse_statement"
  | catches => "parse_catches"
  | catchClause => "parse_catch_clause"
  | resourceSpecification => "parse_resource_specification"
  | resource => "parse_resource"
  | switchBlockStatementGroups => "parse_switch_block_statement_groups"
  | switchBlockStatementGroup => "parse_switch_block_statement_group"
  | forControl => "parse_for_control"
  | forVarControl => "parse_for_var_control"
  | forVarControlRest => "parse_for_var_control_rest"
  | forVariableDeclaratorRest => "parse_for_variable_declarator_rest"
  | forInitOrUpdate => "parse_for_init_or_update"
  | expression => "parse_expression"
  | expressionOne => "parse_expressionl"
  | expressionTwo => "parse_expression_2"
  | expressionTwoRest => "parse_expression_2_rest"
  | expressionThree => "parse_expression_3"
  | methodReference => "parse_method_reference"
  | lambdaExpression => "parse_lambda_expression"
  | lambdaMethodBody => "parse_lambda_method_body"
  | infixOperator => "parse_infix_operator"
  | primary => "parse_primary"
  | literal => "parse_literal"
  | parExpression => "parse_par_expression"
  | arguments => "parse_arguments"
  | superSuffix => "parse_super_suffix"
  | explicitGenericInvocationSuffix => "parse_explicit_generic_invocation_suffix"
  | creator => "parse_creator"
  | createdName => "parse_created_name"
  | classCreatorRest => "parse_class_creator_rest"
  | arrayCreatorRest => "parse_array_creator_rest"
  | identifierSuffix => "parse_identifier_suffix"
  | explicitGenericInvocation => "parse_explicit_generic_invocation"
  | innerCreator => "parse_inner_creator"
  | selector => "parse_selector"
  | enumBody => "parse_enum_body"
  | enumConstant => "parse_enum_constant"
  | annotationTypeBody => "parse_annotation_type_body"
  | annotationTypeElementDeclarations => "parse_annotation_type_element_declarations"
  | annotationTypeElementDeclaration => "parse_annotation_type_element_declaration"
  | annotationMethodOrConstantRest => "parse_annotation_method_or_constant_rest"

def ofName? (s : String) : Option Rule := all.find? (·.name == s)

@[reducible] def Result : Rule → Type
  | identifier => Text
  | qualifiedIdentifier => Text
  | qualifiedIdentifierList => List Text
  | infixOperator => Text
  | typeDeclaration => Option Tree
  | typeArguments => List Tree
  | nonwildcardTypeArguments => List Tree
  | typeList => List Tree
  | typeArgumentsOrDiamond => List Tree
  | nonwildcardTypeArgumentsOrDiamond => List Tree
  | typeParameters => List Tree
  | arrayDimension => Nat
  | modifiers => Modifiers
  | annotations => List Tree
  | elementValuePairs => List Tree
  | elementValues => List Tree
  | classBody => List Tree
  | interfaceBody => List Tree
  | formalParameters => List Tree
  | variableModifiers => VariableModifiers
  | missingDeclarators => List Tree
  | variableDeclarators => List Tree
  | variableDeclaratorRest => DeclaratorRest
  | constantDeclaratorRest => DeclaratorRest
  | block => List Tree
  | catches => List Tree
  | resourceSpecification => List Tree
  | switchBlockStatementGroups => List Tree
  | forVarControlRest => ForRest
  | forVariableDeclaratorRest => List Tree
  | forInitOrUpdate => List Tree
  | expressionTwoRest => List Tree
  | methodReference => Tree × List Tree
  | arguments => List Tree
  | classCreatorRest => List Tree × Option (List Tree)
  | annotationTypeBody => List Tree
  | annotationTypeElementDeclarations => List Tree
  | interfaceBodyDeclaration => Option Tree
  | _ => Tree

def setOf (texts : List Text) : Tree := .set (texts.map .text)

def toTree : (r : Rule) → r.Result → Tree
  | identifier, x => .text x
  | qualifiedIdentifier, x => .text x
  | qualifiedIdentifierList, x => .ofTexts x
  | importDeclaration, t => t
  | typeDeclaration, x => .ofOption x
  | classOrInterfaceDeclaration, t => t
  | normalClassDeclaration, t => t
  | enumDeclaration, t => t
  | normalInterfaceDeclaration, t => t
  | annotationTypeDeclaration, t => t
  | type, t => t
  | basicType, t => t
  | referenceType, t => t
  | typeArguments, x => .list x
  | typeArgument, t => t
  | nonwildcardTypeArguments, x => .list x
  | typeList, x => .list x
  | typeArgumentsOrDiamond, x => .list x
  | nonwildcardTypeArgumentsOrDiamond, x => .list x
  | typeParameters, x => .list x
  | typeParameter, t => t
  | arrayDimension, n => .dimensions n
  | modifiers, m =>
    .tuple [setOf m.modifiers, .list m.annotations, .ofText? m.javadoc]
  | annotations, x => .list x
  | annotationUse, t => t
  | annotationElement, t => t
  | elementValuePairs, x => .list x
  | elementValuePair, t => t
  | elementValue, t => t
  | elementValueArrayInitializer, t => t
  | elementValues, x => .list x
  | classBody, x => .list x
  | classBodyDeclaration, t => t
  | memberDeclaration, t => t
  | methodOrFieldDeclaration, t => t
  | methodOrFieldRest, t => t
  | fieldDeclaratorsRest, t => t
  | methodDeclaratorRest, t => t
  | voidMethodDeclaratorRest, t => t
  | constructorDeclaratorRest, t => t
  | genericMethodOrConstructorDeclaration, t => t
  | interfaceBody, x => .list x
  | interfaceBodyDeclaration, x => .ofOption x
  | interfaceMemberDeclaration, t => t
  | interfaceMethodOrFieldDeclaration, t => t
  | interfaceMethodOrFieldRest, t => t
  | constantDeclaratorsRest, t => t
  | constantDeclaratorRest, d => .tuple [.dimensions d.dimensions, d.initializer]
  | constantDeclarator, t => t
  | interfaceMethodDeclaratorRest, t => t
  | voidInterfaceMethodDeclaratorRest, t => t
  | interfaceGenericMethodDeclarator, t => t
  | formalParameters, x => .list x
  | variableModifiers, m => .tuple [setOf m.modifiers, .list m.annotations]
  | missingDeclarators, x => .list x
  | variableDeclarators, x => .list x
  | variableDeclarator, t => t
  | variableDeclaratorRest, d => .tuple [.dimensions d.dimensions, d.initializer]
  | variableInitializer, t => t
  | arrayInitializer, t => t
  | block, x => .list x
  | blockStatement, t => t
  | localVariableDeclarationStatement, t => t
  | statement, t => t
  | catches, x => .list x
  | catchClause, t => t
  | resourceSpecification, x => .list x
  | resource, t => t
  | switchBlockStatementGroups, x => .list x
  | switchBlockStatementGroup, t => t
  | forControl, t => t
  | forVarControl, t => t
  | forVarControlRest, .each iterable => iterable
  | forVarControlRest, .counted declarators condition update =>
    .tuple [.list declarators, condition, update]
  | forVariableDeclaratorRest, x => .list x
  | forInitOrUpdate, x => .list x
  | expression, t => t
  | expressionOne, t => t
  | expressionTwo, t => t
  | expressionTwoRest, x => .list x
  | expressionThree, t => t
  | methodReference, (t, ts) => .tuple [t, .list ts]
  | lambdaExpression, t => t
  | lambdaMethodBody, t => t
  | infixOperator, x => .text x
  | primary, t => t
  | literal, t => t
  | parExpression, t => t
  | arguments, x => .list x
  | superSuffix, t => t
  | explicitGenericInvocationSuffix, t => t
  | creator, t => t
  | createdName, t => t
  | classCreatorRest, (ts, body) => .tuple [.list ts, .ofList? body]
  | arrayCreatorRest, t => t
  | identifierSuffix, t => t
  | explicitGenericInvocation, t => t
  | innerCreator, t => t
  | selector, t => t
  | enumBody, t => t
  | enumConstant, t => t
  | annotationTypeBody, x => .list x
  | annotationTypeElementDeclarations, x => .list x
  | annotationTypeElementDeclaration, t => t
  | annotationMethodOrConstantRest, t => t

end Rule

end JavaSource.Grammar

/-!
# Attributes

The names under which the parts of a tree are kept. Besides the declared ones, a tree may carry
further parts under any name.
-/

namespace JavaSource

inductive Attr where
  | package
  | imports
  | types
  | path
  | isStatic
  | wildcard
  | documentation
  | modifiers
  | annotations
  | name
  | body
  | typeParameters
  | supertypes
  | implements
  | dimensions
  | arguments
  | subType
  | type
  | patternType
  | element
  | value
  | values
  | returnType
  | parameters
  | throws
  | declarators
  | initializers
  | initializer
  | varargs
  | label
  | condition
  | thenStatement
  | elseStatement
  | control
  | goto
  | expression
  | lock
  | block
  | resources
  | catches
  | finallyBlock
  | cases
  | statements
  | parameter
  | caseLabels
  | initial
  | update
  | loopVariable
  | iterable
  | target
  | ifTrue
  | ifFalse
  | operator
  | leftOperand
  | rightOperand
  | method
  | typeArguments
  | prefixOperators
  | postfixOperators
  | qualifier
  | selectors
  | member
  | index
  | constructorTypeArguments
  | constants
  | declarations
  | defaultValue
  | other (s : String)
  deriving DecidableEq, Repr

namespace Attr

def all : List Attr :=
  [package, imports, types, path, isStatic, wildcard, documentation, modifiers, annotations,
   name, body, typeParameters, supertypes, implements, dimensions, arguments, subType, type,
   patternType, element, value, values, returnType, parameters, throws, declarators,
   initializers, initializer, varargs, label, condition, thenStatement, elseStatement, control,
   goto, expression, lock, block, resources, catches, finallyBlock, cases, statements,
   parameter, caseLabels, initial, update, loopVariable, iterable, target, ifTrue, ifFalse,
   operator, leftOperand, rightOperand, method, typeArguments, prefixOperators,
   postfixOperators, qualifier, selectors, member, index, constructorTypeArguments, constants,
   declarations, defaultValue]

def spelling : Attr → String
  | package => "package"
  | imports => "imports"
  | types => "types"
  | path => "path"
  | isStatic => "static"
  | wildcard => "wildcard"
  | documentation => "documentation"
  | modifiers => "modifiers"
  | annotations => "annotations"
  | name => "name"
  | body => "body"
  | typeParameters => "type_parameters"
  | supertypes => "extends"
  | implements => "implements"
  | dimensions => "dimensions"
  | arguments => "arguments"
  | subType => "sub_type"
  | type => "type"
  | patternType => "pattern_type"
  | element => "element"
  | value => "value"
  | values => "values"
  | returnType => "return_type"
  | parameters => "parameters"
  | throws => "throws"
  | declarators => "declarators"
  | initializers => "initializers"
  | initializer => "initializer"
  | varargs => "varargs"
  | label => "label"
  | condition => "condition"
  | thenStatement => "then_statement"
  | elseStatement => "else_statement"
  | control => "control"
  | goto => "goto"
  | expression => "expression"
  | lock => "lock"
  | block => "block"
  | resources => "resources"
  | catches => "catches"
  | finallyBlock => "finally_block"
  | cases => "cases"
  | statements => "statements"
  | parameter => "parameter"
  | caseLabels => "case"
  | initial => "init"
  | update => "update"
  | loopVariable => "var"
  | iterable => "iterable"
  | target => "expressionl"
  | ifTrue => "if_true"
  | ifFalse => "if_false"
  | operator => "operator"
  | leftOperand => "operandl"
  | rightOperand => "operandr"
  | method => "method"
  | typeArguments => "type_arguments"
  | prefixOperators => "prefix_operators"
  | postfixOperators => "postfix_operators"
  | qualifier => "qualifier"
  | selectors => "selectors"
  | member => "member"
  | index => "index"
  | constructorTypeArguments => "constructor_type_arguments"
  | constants => "constants"
  | declarations => "declarations"
  | defaultValue => "default"
  | other s => s

def ofName (s : String) : Attr := (all.find? (·.spelling == s)).getD (.other s)

end Attr

end JavaSource

import JavaSource.Grammar.Body
import JavaSource.Proofs.Expression.Grouping

/-!
# The shapes of what rules give

A rule fills in attributes of what other rules give, or takes it apart: it names the first declarator of a field,
adds dimensions to a type, or builds an operation from a chain of operands and operators. `Rule.Shaped` says for
each rule what the others rely on. An attribute can be set on a node or a token only, so the trees to which this
is done are *objects*.
-/

namespace JavaSource

namespace Tree

/-- Whether attributes can be set on the tree. -/
def isObject : Tree → Bool
  | node .. | token .. => true
  | _ => false

/-- Whether the tree is an expression, or the token that stands for one before a method reference. -/
def isOperand : Tree → Bool
  | node kind .. => kind.isA .expression
  | token .. => true
  | _ => false

/-- The tree has a list of dimensions. -/
def HasDimensions (t : Tree) : Prop := ∃ items, t.get? .dimensions = some (.list items)

/-- The tree has a declarator, the first of which can be named. -/
def HasDeclarators (t : Tree) : Prop :=
  ∃ first rest, t.get? .declarators = some (.list (first :: rest)) ∧ first.isObject = true

/-- The tree has a return type to which dimensions can be added. -/
def HasReturnType (t : Tree) : Prop := ∃ type, t.get? .returnType = some type ∧ type.HasDimensions

section

variable {t : Tree} {a : Attr} {v : Tree}

@[simp] theorem isObject_put (t : Tree) (a : Attr) (v : Tree) : (t.put a v).isObject = t.isObject := by
  cases t <;> rfl

@[simp] theorem isObject_placeAt (t : Tree) (position : Option Position) :
    (t.placeAt position).isObject = t.isObject := by
  cases t <;> rfl

@[simp] theorem isOperand_put (t : Tree) (a : Attr) (v : Tree) : (t.put a v).isOperand = t.isOperand := by
  cases t <;> rfl

@[simp] theorem isOperand_placeAt (t : Tree) (position : Option Position) :
    (t.placeAt position).isOperand = t.isOperand := by
  cases t <;> rfl

theorem isObject_of_isOperand (operand : t.isOperand = true) : t.isObject = true := by
  cases t <;> first | rfl | cases operand

theorem isObject_of_get? (has : t.get? a = some v) : t.isObject = true := by
  cases t <;> first | rfl | cases has

theorem HasReturnType.isObject (has : t.HasReturnType) : t.isObject = true :=
  isObject_of_get? has.choose_spec.1

theorem HasDeclarators.isObject (has : t.HasDeclarators) : t.isObject = true :=
  isObject_of_get? has.choose_spec.choose_spec.1

theorem lookup_assign (a : Attr) (v : Tree) (fields : List (Attr × Tree)) :
    lookup a (assign a v fields) = some v := by
  induction fields with
  | nil => rw [assign, lookup, if_pos rfl]
  | cons field rest ih =>
    obtain ⟨b, w⟩ := field
    rw [assign]
    split
    · rw [lookup, if_pos rfl]
    · rename_i other
      rw [lookup, if_neg other, ih]

/-- What is set on an object is there. -/
theorem get?_put (object : t.isObject = true) (other : a ≠ .value) : (t.put a v).get? a = some v := by
  cases t with
  | node kind fields place => exact lookup_assign a v fields
  | token cls value position javadoc fields place =>
    rw [put, get?, if_neg other]
    exact lookup_assign a v fields
  | _ => cases object

theorem hasDimensions_put (object : t.isObject = true) (items : List Tree) :
    (t.put .dimensions (.list items)).HasDimensions :=
  ⟨items, get?_put object (by decide)⟩

end

end Tree

namespace Grammar

/-- The operator has a level. -/
def IsOperator (operator : Text) : Prop := ∃ level ∈ operatorLevels, operator ∈ level

/-- The parts of a chain after its first operand. -/
def IsChain (parts : List Tree) : Prop :=
  ∃ pairs : List (Text × Tree), parts = pairs.flatMap (fun pair => [.text pair.1, pair.2]) ∧
    ∀ pair ∈ pairs, IsOperator pair.1

def AreDeclarators (declarators : List Tree) : Prop :=
  ∃ first rest, declarators = first :: rest ∧ first.isObject = true

/-- A method has a return type, and what is no method has declarators. -/
structure IsMember (t : Tree) : Prop where
  method : t.isA .methodDeclaration = true → t.HasReturnType
  field : t.isA .methodDeclaration = false → t.HasDeclarators

structure IsElement (t : Tree) : Prop where
  object : t.isObject = true
  constant : t.isA .annotationMethod = false → t.HasDeclarators

def ForRest.Shaped : ForRest → Prop
  | each iterable => iterable.isOperand = true
  | counted declarators _ _ => AreDeclarators declarators

section

variable {t : Tree}

@[simp] theorem isObject_on (found : Modifiers) (t : Tree) : (found.on t).isObject = t.isObject := by
  simp only [Modifiers.on, Tree.isObject_put]

@[simp] theorem isObject_nameFirst (name : Text) (t : Tree) : (nameFirst name t).isObject = t.isObject := by
  rw [nameFirst]
  split
  · rfl
  · exact Tree.isObject_put ..

@[simp] theorem isObject_nameMethod (name : Text) (type t : Tree) : (nameMethod name type t).isObject = t.isObject :=
    by
  simp only [nameMethod, Tree.isObject_put]

@[simp] theorem isObject_nameMember (name : Text) (type t : Tree) :
    (Body.nameMember name type t).isObject = t.isObject := by
  rw [Body.nameMember]
  split
  · exact isObject_nameMethod ..
  · exact (isObject_nameFirst ..).trans (Tree.isObject_put ..)

@[simp] theorem isOperand_qualify (names : List Text) (start : Option Token) (suffix : Tree) :
    (Body.qualify names start suffix).isOperand = suffix.isOperand := by
  simp only [Body.qualify, Tree.isOperand_put, Tree.isOperand_placeAt]
  split
  · exact Tree.isOperand_put ..
  · split
    · exact Tree.isOperand_put ..
    · rfl

theorem isObject_segmentsType {segments : List (Text × Option (List Tree))} (some : segments ≠ []) :
    (Body.segmentsType segments).isObject = true := by
  cases segments with
  | nil => exact absurd rfl some
  | cons segment rest => rfl

theorem IsMember.isObject (member : IsMember t) : t.isObject = true := by
  cases isMethod : t.isA .methodDeclaration with
  | true => exact (member.method isMethod).isObject
  | false => exact (member.field isMethod).isObject

theorem IsMember.of_method (method : t.isA .methodDeclaration = true ∧ t.HasReturnType) : IsMember t :=
  ⟨fun _ => method.2, fun no => absurd (method.1.symm.trans no) (by decide)⟩

theorem IsMember.of_field
    (field : t.isA .methodDeclaration = false ∧ t.isA .annotationMethod = false ∧ t.HasDeclarators) : IsMember t :=
  ⟨fun yes => absurd (field.1.symm.trans yes) (by decide), fun _ => field.2.2⟩

theorem IsElement.of_method (object : t.isObject = true) (method : t.isA .annotationMethod = true) : IsElement t :=
  ⟨object, fun no => absurd (method.symm.trans no) (by decide)⟩

theorem IsElement.of_constant
    (constant : t.isA .methodDeclaration = false ∧ t.isA .annotationMethod = false ∧ t.HasDeclarators) : IsElement t :=
  ⟨constant.2.2.isObject, fun _ => constant.2.2⟩

/-- From an operand and a chain an operation can be built. -/
theorem IsChain.exists_buildOperation {first : Tree} {rest : List Tree} (chain : IsChain rest)
    (operand : first.isOperand = true) : ∃ t, buildOperation 0 (first :: rest) = .ok t ∧ t.isOperand = true := by
  obtain ⟨pairs, rfl, known⟩ := chain
  let c : Chain Tree := ⟨first, pairs⟩
  have levels : ∀ o ∈ c.operators, ∃ level ∈ operatorLevels, o ∈ level := by
    intro o mem
    obtain ⟨pair, inside, rfl⟩ := List.mem_map.1 mem
    exact known pair inside
  obtain ⟨g, built⟩ := exists_builds operatorLevels c levels
  refine ⟨g.tree, built.buildOperation 0, ?_⟩
  cases g with
  | operand x =>
    have same : x = first := congrArg Chain.first built.chain
    rw [Grouping.tree, same]
    exact operand
  | pair left operator right => rfl

end

/-- **The shape** of what a rule gives, as far as other rules rely on it. -/
def Rule.Shaped : (r : Rule) → r.Result → Prop
  | .infixOperator, operator => IsOperator operator
  | .expressionTwoRest, parts => IsChain parts
  | .forVariableDeclaratorRest, declarators => AreDeclarators declarators
  | .forVarControlRest, rest => rest.Shaped
  | .type, t => t.HasDimensions
  | .methodDeclaratorRest, t | .interfaceMethodDeclaratorRest, t => t.isA .methodDeclaration = true ∧ t.HasReturnType
  | .methodOrFieldRest, t | .interfaceMethodOrFieldRest, t => IsMember t
  | .fieldDeclaratorsRest, t | .constantDeclaratorsRest, t =>
    t.isA .methodDeclaration = false ∧ t.isA .annotationMethod = false ∧ t.HasDeclarators
  | .annotationMethodOrConstantRest, t => IsElement t
  | .methodReference, found => found.1.isOperand = true
  | .expression, t | .expressionOne, t | .expressionTwo, t | .expressionThree, t | .lambdaExpression, t
  | .primary, t | .literal, t | .parExpression, t | .superSuffix, t | .explicitGenericInvocationSuffix, t
  | .creator, t | .arrayCreatorRest, t | .identifierSuffix, t | .explicitGenericInvocation, t | .innerCreator, t
  | .selector, t => t.isOperand = true
  | .typeDeclaration, found | .interfaceBodyDeclaration, found => ∀ t ∈ found, t.isObject = true
  | .importDeclaration, t | .classOrInterfaceDeclaration, t | .normalClassDeclaration, t | .enumDeclaration, t
  | .normalInterfaceDeclaration, t | .annotationTypeDeclaration, t | .basicType, t | .referenceType, t
  | .createdName, t | .typeArgument, t | .typeParameter, t | .annotationUse, t | .elementValuePair, t
  | .memberDeclaration, t | .methodOrFieldDeclaration, t | .voidMethodDeclaratorRest, t
  | .constructorDeclaratorRest, t | .genericMethodOrConstructorDeclaration, t | .interfaceMemberDeclaration, t
  | .interfaceMethodOrFieldDeclaration, t | .voidInterfaceMethodDeclaratorRest, t
  | .interfaceGenericMethodDeclarator, t | .constantDeclarator, t | .variableDeclarator, t | .variableInitializer, t
  | .arrayInitializer, t | .blockStatement, t | .localVariableDeclarationStatement, t | .statement, t
  | .catchClause, t | .resource, t | .switchBlockStatementGroup, t | .forControl, t | .forVarControl, t
  | .enumBody, t | .enumConstant, t | .annotationTypeElementDeclaration, t => t.isObject = true
  | _, _ => True

end Grammar

end JavaSource

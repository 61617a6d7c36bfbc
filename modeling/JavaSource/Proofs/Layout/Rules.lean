import JavaSource.Proofs.Layout.Combinators
import JavaSource.Proofs.Rules.LookAhead

/-!
# Rules and layout

Every rule of the grammar is alike to itself: `Rule.body_alike`. What a rule makes of trees is the same up to
layout if the trees are. Rules that take trees apart, or go by them in what they do next, come first.
-/

namespace JavaSource.Grammar

open List Body

open Routine

variable {docs : Bool} {T : Token → Token → Prop}

/-! ## What rules make of trees -/

section Made

theorem same_tokenTree {t u : Option Token} (same : Same docs t u) :
    Same docs (tokenTree t) (tokenTree u) := by
  have plain (t : Option Token) : (tokenTree t).plain docs = tokenTree (Laid.plain docs t) := by
    cases t <;> rfl
  have trees : (tokenTree t).plain docs = (tokenTree u).plain docs := by rw [plain, plain, same]
  exact trees

theorem same_qualify {names names' : List Text} {suffix suffix' : Tree} (first : Text)
    (more : Same docs names names') (same : Same docs suffix suffix') (start start' : Option Token) :
    Same docs (qualify (first :: names) start suffix) (qualify (first :: names') start' suffix') := by
  simp only [Same, laid_list, laid_text, map_id_fun, id_eq] at more
  subst more
  exact qualify_of_plain same _ start start'

theorem isA_iff {t u : Tree} (same : Same docs t u) (kind : Kind) : t.isA kind = true ↔ u.isA kind = true := by
  rw [Tree.isA_of_plain same]

theorem same_enumBody {constants constants' declarations declarations' : List Tree}
    (listed : Same docs constants constants') (declared : Same docs declarations declarations') : Same docs
      (Tree.make .enumBody [(.constants, .list constants), (.declarations, .list (declarations.filter Tree.isTrue))])
      (Tree.make .enumBody
        [(.constants, .list constants'), (.declarations, .list (declarations'.filter Tree.isTrue))]) := by
  have kept := Tree.filter_isTrue_of_plain declared
  have constants : constants.map (Tree.plain docs) = constants'.map (Tree.plain docs) := listed
  simp only [Same, laid_tree, Tree.plain_make, Tree.plainFields_cons, Tree.plainFields_nil, Tree.kept, Tree.plain_list,
    kept, constants]

/-- The documentation of a constant is that of its first token. -/
theorem documentation_same {t u : Option Token} (same : Same docs t u) :
    Tree.kept docs .documentation (.ofText? (javadocOf t)) = Tree.kept docs .documentation (.ofText? (javadocOf u)) := by
  have documented (t : Option Token) :
      Tree.kept docs .documentation (.ofText? (javadocOf t)) = .ofText? (if docs then javadocOf t else none) := by
    cases docs with
    | false => rfl
    | true => cases found : javadocOf t <;> simp [Tree.kept, Tree.ofText?]
  rw [documented, documented, javadocOf_same same]

theorem same_getD {t u : Tree} {found found' : Option (List Tree)} (tree : Same docs t u)
    (same : Same docs found found') : Same docs (t, found.getD []) (u, found'.getD []) := by
  refine congrArg₂ Prod.mk tree ?_
  have plain (found : Option (List Tree)) :
      (found.getD []).map (Tree.plain docs) = (Option.map (List.map (Tree.plain docs)) found).getD [] := by
    cases found <;> rfl
  exact (plain found).trans ((congrArg (Option.getD · []) same).trans (plain found').symm)

theorem isNone_same {found found' : Option (List Tree)} (same : Same docs found found') :
    found.isNone = found'.isNone := by
  have plain (found : Option (List Tree)) : (Laid.plain docs found).isNone = found.isNone := by cases found <;> rfl
  rw [← plain, same, plain]

theorem anyFilled_same {found found' : Option (List Tree)} (same : Same docs found found') :
    found.any (!·.isEmpty) = found'.any (!·.isEmpty) := by
  have plain (found : Option (List Tree)) :
      (Laid.plain docs found).any (!·.isEmpty) = found.any (!·.isEmpty) := by
    cases found with
    | none => rfl
    | some items => cases items <;> rfl
  rw [← plain, same, plain]

end Made

theorem alike_placeAt {routine : Routine Tree} (alike : routine.Alike docs T (Same docs) routine)
    (start start' : Option Token) : (do return (← routine).placeAt (positionOf start)).Alike docs T (Same docs)
      (do return (← routine).placeAt (positionOf start')) := by
  apply alike_bind alike
  intro a b same
  refine .pure ?_
  simp only [Same, laid_tree, Tree.plain_placeAt]
  exact same

theorem alike_selectorStart {t u : Option Token} (same : Same docs t u) :
    (selectorStart t).Alike docs T (Same docs) (selectorStart u) := by
  cases t with
  | none =>
    cases u with
    | none => exact .fail (.other _ rfl)
    | some u => cases same
  | some t =>
    cases u with
    | none => cases same
    | some u => exact .pure (isAmong_same same _)

theorem alike_forVarControl : forVarControl.Alike docs T (Same docs) forVarControl := by
  apply alike_bind (alike_parse .variableModifiers)
  intro found found' modifiers
  apply alike_bind (alike_parse .type)
  intro type type' types
  refine alike_bind_eq (alike_parse .identifier) fun name => ?_
  refine alike_bind_eq (alike_parse .arrayDimension) fun n => ?_
  obtain ⟨set, list⟩ := VariableModifiers.mk.inj (show Laid.plain docs found = Laid.plain docs found' from modifiers)
  have annotations : found.annotations.map (Tree.plain docs) = found'.annotations.map (Tree.plain docs) := list
  have plain : type.plain docs = type'.plain docs := types
  apply alike_bind (alike_parse .forVarControlRest)
  intro rest rest' same
  cases rest with
  | each iterable =>
    cases rest' with
    | each iterable' =>
      have iterables : iterable.plain docs = iterable'.plain docs := ForRest.each.inj same
      refine .pure ?_
      simp [Same, Tree.kept, set, annotations, plain, iterables]
    | counted declarators condition update => cases same
  | counted declarators condition update =>
    cases rest' with
    | each iterable => cases same
    | counted declarators' condition' update' =>
      obtain ⟨declared, tested, updated⟩ := ForRest.counted.inj same
      simp only [laid_tree, laid_list] at declared tested updated
      refine .pure ?_
      cases declarators with
      | nil =>
        obtain rfl := map_eq_nil_iff.1 declared.symm
        simp [Same, Tree.kept, set, annotations, plain, tested, updated]
      | cons first more =>
        obtain ⟨first', more', rfl, head, tail⟩ := map_eq_cons_iff.1 declared.symm
        simp [Same, Tree.kept, set, annotations, plain, tested, updated, head, tail]

variable [Pairs docs T]

/-! ## Types and modifiers -/

theorem alike_nonwildcardTypeArguments :
    nonwildcardTypeArguments.Alike docs T (Same docs) nonwildcardTypeArguments := by
  refine alike_bind_eq (alike_discard (alike_accept _)) fun _ => ?_
  apply alike_bind (alike_parse .typeList)
  intro types types' same
  refine alike_bind_eq (alike_discard (alike_accept _)) fun _ => ?_
  -- an argument without layout is made of the type without layout
  have arguments (types : List Tree) :
      (types.map fun type => Tree.make .typeArgument [(.type, type)]).map (Tree.plain docs) =
        (types.map (Tree.plain docs)).map fun type => .make .typeArgument [(.type, type)] := by
    rw [map_map, map_map]
    exact map_congr_left fun type _ => by simp [Tree.kept]
  refine .pure ((arguments types).trans (Eq.trans ?_ (arguments types').symm))
  exact congrArg (List.map _) same

/-- Modifiers and annotations are gathered in the same way, if one modifier is taken in the same way. -/
theorem alike_modifiersBy {modifier : Routine (Option Text)} (takes : modifier.Alike docs T (Same docs) modifier) :
    (modifiersBy modifier).Alike docs T (Same docs) (modifiersBy modifier) := by
  refine alike_loop_same rfl ?_ fun _ _ same => .pure same
  intro acc acc' same
  simp only [Same, laid_variableModifiers, VariableModifiers.mk.injEq] at same
  obtain ⟨modifiers, annotations⟩ := same
  apply alike_bind_same alike_peek
  intro start start' _
  apply alike_bind_same takes
  intro found found' together
  simp only [Same, laid_option, laid_text, Option.map_id_fun, id_eq] at together
  subst together
  cases found with
  | some m => exact .pure (by simp [Same, modifiers, annotations])
  | none =>
    refine alike_bind_eq (alike_annotationAt 0) fun starts => ?_
    apply alike_ite Iff.rfl
    · apply alike_bind_same (alike_placeAt (alike_parse .annotationUse) start start')
      intro a b same
      have plain : a.plain docs = b.plain docs := same
      exact .pure (by simp [Same, modifiers, annotations, plain])
    · exact .pure (by simp [Same, modifiers, annotations])

theorem alike_modifiers : modifiers.Alike docs T (Same docs) modifiers := by
  have takes : anyModifier.Alike docs T (Same docs) anyModifier := by
    refine alike_bind_eq (alike_wouldAccept _) fun comes => ?_
    refine alike_ite Iff.rfl ?_ (.pure rfl)
    apply alike_bind_same (alike_accept _)
    intro m m' same
    exact .pure (same_some same)
  apply alike_bind_same alike_peek
  intro first first' same
  apply alike_bind_same (alike_modifiersBy takes)
  intro found found' together
  simp only [Same, laid_variableModifiers, VariableModifiers.mk.injEq] at together
  exact .pure (by simp [Same, together, javadocOf_same same])

/-! ## Members -/

theorem alike_interfaceBody : interfaceBody.Alike docs T (Same docs) interfaceBody := by
  refine alike_bind_eq (alike_discard (alike_accept _)) fun _ => ?_
  apply alike_bind_same (alike_manyUntil (alike_parse .interfaceBodyDeclaration))
  intro declarations declarations' same
  refine alike_bind_eq (alike_discard (alike_accept _)) fun _ => ?_
  refine .pure ?_
  have kept (found : List (Option Tree)) :
      (found.filterMap id).map (Tree.plain docs) = (found.map (Option.map (Tree.plain docs))).filterMap id := by
    rw [map_filterMap, filterMap_map]
    rfl
  exact (kept declarations).trans ((congrArg (List.filterMap id) same).trans (kept declarations').symm)

/-! ## Statements -/

theorem alike_pastDots (i : Nat) : (pastDots i).Alike docs T (Same docs) (pastDots i) := by
  refine alike_loop_same rfl ?_ fun _ _ same => .pure same
  intro i i' same
  cases (show i = i' from same)
  apply alike_bind_same (alike_lookAt _)
  intro t u same
  exact alike_ite (by rw [isWord_same same]) (.pure rfl) (.pure rfl)

theorem alike_pastParentheses (i : Nat) :
    (pastParentheses i).Alike docs T (Same docs) (pastParentheses i) := by
  refine alike_loop_same rfl ?_ ?_
  · intro ⟨i, depth⟩ ⟨i', depth'⟩ same
    cases (show (i, depth) = (i', depth') from same)
    apply alike_bind_same (alike_lookAt _)
    intro t u same
    rw [isWord_same same, isWord_same same]
    exact .pure rfl
  · intro ⟨i, depth⟩ ⟨i', depth'⟩ same
    cases (show (i, depth) = (i', depth') from same)
    exact .pure rfl

theorem Body.Lead.annotated_plain (docs : Bool) (found : Body.Lead) :
    (Laid.plain docs found).annotated = found.annotated := by
  cases found <;> rfl

theorem same_passed {t u : Option Token} (same : Same docs t u) (i : Nat) (annotated more : Bool) :
    Same docs ((i, Body.Lead.passed t annotated), more) ((i, Body.Lead.passed u annotated), more) :=
  congrArg (fun t => ((i, Body.Lead.passed t annotated), more)) same

theorem alike_lead : lead.Alike docs T (Same docs) lead := by
  refine alike_loop_same rfl ?_ ?_
  · intro ⟨i, found⟩ ⟨i', found'⟩ same
    obtain ⟨index, ends⟩ := Prod.mk.inj same
    cases (show i = i' from index)
    -- both look-aheads have met annotations, or none has
    have met : found.annotated = found'.annotated := by
      rw [← Body.Lead.annotated_plain docs found, ends, Body.Lead.annotated_plain]
    change (leadTurn found.annotated i).Alike docs T (Same docs) (leadTurn found'.annotated i)
    rw [met]
    apply alike_bind_same (alike_lookAt _)
    intro t u same
    apply alike_ite (by rw [isOf_same same])
    · exact alike_ite (by rw [isWord_same same]) (.pure (same_passed same _ _ _)) (.pure rfl)
    · refine alike_bind_eq (alike_annotationAt _) fun starts => ?_
      apply alike_ite Iff.rfl
      · refine alike_bind_eq (alike_pastDots _) fun j => ?_
        apply alike_bind_same (alike_lookAt _)
        intro v w behind
        apply alike_ite (by rw [isWord_same behind])
        · refine alike_bind_eq (alike_pastParentheses _) fun k => ?_
          exact .pure (same_passed same _ _ _)
        · exact .pure (same_passed same _ _ _)
      · exact .pure (same_passed same _ _ _)
  · intro ⟨i, found⟩ ⟨i', found'⟩ same
    exact .pure (Prod.mk.inj same).2

theorem alike_blockStatement : blockStatement.Alike docs T (Same docs) blockStatement := by
  refine alike_bind_eq (alike_wouldAccept _) fun labelled => ?_
  apply alike_ite Iff.rfl (alike_parse .statement)
  refine alike_bind_eq (alike_wouldAccept _) fun locks => ?_
  apply alike_ite Iff.rfl (alike_parse .statement)
  apply alike_bind_same alike_lead
  intro found found' same
  cases found with
  | declaration =>
    cases found' with
    | declaration => exact alike_parse .classOrInterfaceDeclaration
    | passed start annotated => cases same
  | passed start annotated =>
    cases found' with
    | declaration => cases same
    | passed start' annotated' =>
      obtain ⟨starts, together⟩ := Body.Lead.passed.inj same
      cases together
      have token : Same docs start start' := starts
      have placed : (localVariableAt start).Alike docs T (Same docs) (localVariableAt start') :=
        alike_placeAt (alike_parse .localVariableDeclarationStatement) start start'
      refine alike_ite (by rw [isAmong_same token]) (alike_parse .classOrInterfaceDeclaration) ?_
      refine alike_ite (by rw [isOf_same token]) placed ?_
      refine alike_ite (by rw [isOf_same token]) (alike_parse .statement) ?_
      exact alike_attempt placed (alike_parse .statement)

/-! ## Expressions -/

theorem alike_expressionTwo : expressionTwo.Alike docs T (Same docs) expressionTwo := by
  apply alike_bind (alike_parse .expressionThree)
  intro first first' head
  have test : binaryOperatorNext.Alike docs T (Same docs) binaryOperatorNext := by
    apply alike_bind_same alike_peek
    intro t u same
    exact .pure (congrArg₂ or (isAmong_same same _) (isWord_same same _))
  refine alike_bind_eq test fun comes => ?_
  refine alike_ite Iff.rfl ?_ (.pure head)
  apply alike_bind (alike_parse .expressionTwoRest)
  intro rest rest' tail
  have built := buildOperation_of_plain (show (first :: rest).map (Tree.plain docs) = (first' :: rest').map _ from
    same_cons head tail)
  cases made : buildOperation 0 (first :: rest) with
  | error failure =>
    cases made' : buildOperation 0 (first' :: rest') with
    | error failure' =>
      rw [made, made'] at built
      cases built
      exact .fail (.other _ (not_illegal_of_buildOperation made))
    | ok tree' =>
      rw [made, made'] at built
      cases built
  | ok tree =>
    cases made' : buildOperation 0 (first' :: rest') with
    | error failure' =>
      rw [made, made'] at built
      cases built
    | ok tree' =>
      rw [made, made'] at built
      exact .pure (Except.ok.inj built)

/-! ## The rules of the grammar -/

theorem code_alike : ∀ r ∈ [
      .block, .localVariableDeclarationStatement, .statement, .catches, .catchClause, .resourceSpecification,
      .resource, .switchBlockStatementGroups, .switchBlockStatementGroup, .forControl, .forVarControlRest,
      .forVariableDeclaratorRest, .forInitOrUpdate, .expression, .expressionOne, .expressionTwoRest, .infixOperator,
      .expressionThree, .methodReference, .lambdaExpression, .lambdaMethodBody, .primary, .literal, .parExpression,
      .arguments, .superSuffix, .explicitGenericInvocationSuffix, .creator, .createdName, .classCreatorRest,
      .arrayCreatorRest, .innerCreator, .identifierSuffix, .explicitGenericInvocation, .selector],
    (Rule.body r).Alike docs T (Rule.Same docs r) (Rule.body r) := by
  simp only [forall_mem_cons, not_mem_nil, false_implies, implies_true, and_true]
  repeat' with_reducible refine And.intro ?_ ?_
  all_goals
    change Routine.Alike docs T (Same docs) _ _
    -- Each step of a routine has its lemma; what is left are tests of tokens, and what is made of trees.
    repeat' first
      | with_reducible apply alike_bind_same
      | (intro x y same
         cases same)
      | (intro (x : Option Token) y same
         have word := isWord_same same
         have cls := isOf_same same
         have among := isAmong_same same)
      | (intro (x : Token) y same
         have value := value_same same
         have word := isWord_same (same_some same))
      | (intro (x : Option (List Tree)) y same
         have missing := isNone_same same
         have filled := anyFilled_same same)
      | intro x y same
      | (with_reducible apply alike_parse_of
         exact fun _ _ same => same)
      | with_reducible apply alike_pure
      | (with_reducible apply alike_ite
         · first
           | with_reducible apply Iff.rfl
           | simp only [*])
      | with_reducible first
        | apply alike_discard
        | apply alike_accept
        | apply alike_tryAccept
        | apply alike_wouldAccept
        | apply alike_map_same
        | apply alike_peek
        | apply alike_take
        | apply alike_illegal
        | apply Alike.pure
        | apply alike_loop_same (same_refl _)
        | (apply alike_selectorStart
           assumption)
        | (apply same_getD <;> assumption)
        | (apply same_tokenTree
           assumption)
        | (apply same_qualify <;> assumption)
      | (with_reducible apply same_of_plain
         simp_all [Same, Tree.kept, Prod.ext_iff])
      | apply alike_bind_same
      | exact .call fun _ _ same => .pure same
      | apply alike_separated
      | apply alike_manyUntil
      | apply alike_whileTrue
      | apply alike_many
      | apply alike_attempt

/-- **Every rule** does the same on tokens that differ in layout only, and gives the same up to layout. -/
theorem Rule.body_alike (r : Rule) : r.body.Alike docs T (r.Same docs) r.body := by
  cases r
  case identifier => exact alike_accept [Pattern.cls .identifier]
  case nonwildcardTypeArguments => exact alike_nonwildcardTypeArguments
  case modifiers => exact alike_modifiers
  case interfaceBody => exact alike_interfaceBody
  case blockStatement => exact alike_blockStatement
  case forVarControl => exact alike_forVarControl
  case expressionTwo => exact alike_expressionTwo
  all_goals try exact code_alike _ (by decide)
  all_goals
    change Routine.Alike docs T (JavaSource.Same docs) _ _
    repeat' first
      | with_reducible apply alike_bind_same
      | (intro x y same
         cases same)
      | (intro (x : Option Token) y same
         have word := isWord_same same
         have cls := isOf_same same
         have among := isAmong_same same
         have documented := documentation_same same)
      | (intro (x : Token) y same
         have value := value_same same)
      | intro x y same
      | (with_reducible apply alike_parse_of
         exact fun _ _ same => same)
      | with_reducible apply alike_pure
      | (with_reducible apply alike_ite
         · first
           | with_reducible apply Iff.rfl
           | (with_reducible apply isA_iff
              assumption)
           | simp only [*])
      | with_reducible first
        | apply alike_discard
        | apply alike_accept
        | apply alike_tryAccept
        | apply alike_wouldAccept
        | apply alike_map_same
        | apply alike_peek
        | apply alike_take
        | apply alike_illegal
        | apply Alike.pure
        | apply alike_annotationAt
        | apply alike_annotationDeclarationAt
        | apply alike_loop_same (same_refl _)
        | (apply same_enumBody <;> assumption)
        | exact Tree.filter_isTrue_of_plain ‹_›
      | (with_reducible apply same_of_plain
         simp_all [JavaSource.Same, Tree.kept, Prod.ext_iff])
      | apply alike_modifiersBy
      | apply alike_bind_same
      | exact .call fun _ _ same => .pure same
      | apply alike_separated
      | apply alike_manyUntil
      | apply alike_whileTrue
      | apply alike_many
      | apply alike_ite
      | exact Alike.fail (.other _ rfl)
      | simp_all [JavaSource.Same, Prod.ext_iff]

end JavaSource.Grammar

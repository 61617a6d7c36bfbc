import JavaSource.Proofs.Rules.LookAhead

/-!
# The rules keep their promises

The condition of `Routine.Ensures` for the routine of every rule: `Rule.body_ensures`. Most routines are gone
through step by step, by the lemma for each step. The rules for operations and operands come first: they rely on
more than the shapes of single trees.
-/

namespace JavaSource.Grammar

open Body List

variable {r : Rule}

theorem Rule.promise {moved : Bool} {x : r.Result} (shaped : r.Shaped x)
    (took : (!r.takes || moved) = true) : r.Promise moved x := by
  refine ⟨shaped, fun takes => ?_⟩
  rw [takes] at took
  exact took

section

variable {quiet : Bool} {terms : Terms} {free moved : Bool}

/-! ## Operations -/

theorem infixOperator_ensures :
    infixOperator.Ensures (contract quiet (Rule.depth .infixOperator)) false false (Rule.Promise .infixOperator) := by
  refine ensures_bind (ensures_accept fun operator => ensures_ite (fun _ => ensures_illegal _) fun isInfix => ?_)
  have known : IsOperator operator := by
    rw [Bool.not_eq_true', Bool.not_eq_false] at isInfix
    exact infix_level operator (contains_iff_mem.1 isInfix)
  refine ensures_ite (fun _ => ?_) fun _ => ensures_pure (Rule.promise known rfl)
  refine ensures_bind (ensures_tryAccept (ensures_then ?_) (ensures_else (ensures_pure (Rule.promise known rfl))))
  refine ensures_bind (ensures_tryAccept (ensures_then (ensures_pure (Rule.promise ?_ rfl)))
    (ensures_else (ensures_pure (Rule.promise ?_ rfl))))
  · exact infix_level _ (by decide)
  · exact infix_level _ (by decide)

/-- The parts of a chain are pairs of an operator and an operand. -/
theorem isChain_flatten {parts : List (List Tree)}
    (pairs : ∀ part ∈ parts, ∃ operator operand, part = [.text operator, operand] ∧ IsOperator operator) :
    IsChain parts.flatten := by
  induction parts with
  | nil => exact ⟨[], rfl, forall_mem_nil _⟩
  | cons part parts ih =>
    obtain ⟨⟨operator, operand, rfl, known⟩, later⟩ := forall_mem_cons.1 pairs
    obtain ⟨chain, rest, all⟩ := ih later
    refine ⟨(operator, operand) :: chain, ?_, forall_mem_cons.2 ⟨known, all⟩⟩
    rw [flatten_cons, rest]
    rfl

theorem expressionTwoRest_ensures :
    expressionTwoRest.Ensures (contract quiet (Rule.depth .expressionTwoRest)) false false (Rule.Promise .expressionTwoRest) := by
  refine ensures_bind (ensures_whileTrue (fun _ => trivial) ?_ fun parts pairs =>
    ensures_pure (Rule.promise (isChain_flatten pairs) rfl))
  refine ensures_bind (ensures_tryAccept (ensures_then ?_) (ensures_else ?_))
  · refine ensures_bind (ensures_parse rfl fun type _ => ensures_pure ⟨rfl, _, type, rfl, ?_⟩)
    exact ⟨_, mem_of_getElem? (i := 6) rfl, by decide⟩
  · refine ensures_bind (ensures_parse rfl fun operator known => ?_)
    exact ensures_bind (ensures_parse rfl fun operand _ => ensures_pure ⟨rfl, operator, operand, rfl, known⟩)

theorem expressionTwo_ensures :
    expressionTwo.Ensures (contract quiet (Rule.depth .expressionTwo)) false false (Rule.Promise .expressionTwo) := by
  refine ensures_bind (ensures_parse rfl fun first operand => ?_)
  refine ensures_bind (Routine.Looks.ensures (fun _ => trivial) (ensures_then ?_)
    (ensures_else (ensures_pure (Rule.promise operand rfl))))
  refine ensures_bind (ensures_parse rfl fun rest chain => ?_)
  obtain ⟨t, built, shaped⟩ := IsChain.exists_buildOperation chain operand
  rw [built]
  exact ensures_pure (Rule.promise shaped rfl)

/-! ## Operands -/

theorem ensures_selectorStart {Q : Bool → Bool → Prop} {t : Option Token} (yes : Q moved true) (no : Q moved false) :
    (selectorStart t).Ensures terms free moved Q := by
  cases t with
  | none => exact ensures_fail
  | some t => exact Routine.Looks.ensures trivial yes no

theorem operand_ensures (operators : List Text) :
    (operand operators).Ensures (contract quiet (Rule.depth .expressionThree)) false false (Rule.Promise .expressionThree) := by
  refine ensures_bind (ensures_parse rfl fun primary operand => ?_)
  refine ensures_bind (ensures_loop fun selectors => ensures_bind (ensures_peek fun t => ?_))
  refine ensures_bind (ensures_selectorStart (ensures_then ?_) (ensures_else ?_))
  · exact ensures_bind (ensures_parse rfl fun selector _ => ensures_pure (turn_goes rfl))
  refine ensures_pure (turn_ends ?_)
  refine ensures_bind (ensures_loop fun postfixes => ensures_bind (ensures_peek fun t => ?_))
  refine ensures_ite (fun _ => ?_) fun _ => ?_
  · exact ensures_bind (ensures_take fun operator => ensures_pure (turn_goes rfl))
  refine ensures_pure (turn_ends (ensures_pure (Rule.promise ?_ rfl)))
  change Tree.isOperand _ = true
  rw [Tree.isOperand_put, Tree.isOperand_put, Tree.isOperand_put]
  exact operand

theorem expressionThree_ensures :
    expressionThree.Ensures (contract quiet (Rule.depth .expressionThree)) false false (Rule.Promise .expressionThree) := by
  refine ensures_bind (ensures_whileTrue (P := fun _ => True) (fun _ => trivial) ?_ fun operators _ => ?_)
  · exact ensures_bind (ensures_take fun operator => ensures_pure ⟨rfl, trivial⟩)
  refine ensures_bind (ensures_wouldAccept (ensures_then ?_) (ensures_else (operand_ensures operators)))
  refine ensures_attempt (ensures_parse rfl fun _ operand => Rule.promise operand rfl)
    (ensures_attempt ?_ (operand_ensures operators))
  refine ensures_bind (ensures_discard (ensures_accept fun _ => ensures_bind (ensures_parse rfl fun type _ => ?_)))
  refine ensures_bind (ensures_discard (ensures_accept fun _ => ensures_bind (ensures_parse rfl fun operand _ => ?_)))
  exact ensures_pure (Rule.promise rfl rfl)

variable {depth : Nat} {Q : Bool → Tree → Prop}

theorem ensures_genericInvocation (typeArguments : List Tree) (start : Option Token)
    (may : Rule.explicitGenericInvocationSuffix.mayFollow depth (free || moved) = true)
    (rest : ∀ t, t.isOperand = true → Q true t) :
    (genericInvocation typeArguments start).Ensures (contract quiet depth) free moved Q := by
  refine ensures_bind (ensures_parse may fun invocation operand => ?_)
  have took : (moved || Rule.takes .explicitGenericInvocationSuffix) = true := Bool.or_true moved
  rw [took]
  refine ensures_pure (rest _ ?_)
  rw [Tree.isOperand_put, Tree.isOperand_placeAt]
  exact operand

theorem named_ensures (start : Option Token) :
    (named start).Ensures (contract quiet (Rule.depth .primary)) false false (Rule.Promise .primary) := by
  refine ensures_bind (ensures_parse rfl fun first _ => ?_)
  refine ensures_bind (ensures_whileTrue (P := fun _ => True) (looks_wouldAccept _ _) ?_ fun more _ => ?_)
  · refine ensures_bind (ensures_discard (ensures_accept fun _ => ?_))
    exact ensures_parse rfl fun name _ => ⟨rfl, trivial⟩
  refine ensures_bind (ensures_parse rfl fun suffix operand => ensures_pure (Rule.promise ?_ rfl))
  exact (isOperand_qualify ..).trans operand

theorem ensures_innerCreatorRest (rest : ∀ t, t.isOperand = true → Q true t) :
    innerCreatorRest.Ensures (contract quiet depth) false true Q := by
  have created (typeArguments : Option (List Tree)) : Routine.Ensures (contract quiet depth) (do
      let creator ← parse .innerCreator
      return creator.put .constructorTypeArguments (.ofList? typeArguments)) false true Q := by
    refine ensures_bind (ensures_parse rfl fun creator operand => ensures_pure (rest _ ?_))
    exact (Tree.isOperand_put ..).trans operand
  refine ensures_bind (ensures_bind (ensures_wouldAccept (ensures_then ?_) (ensures_else ?_)))
  · exact ensures_map (ensures_parse rfl fun _ _ => created _)
  · exact ensures_pure (created none)

/-- A selector behind its dot; here too, the token `super` stands for itself. -/
theorem memberSelector_ensures :
    memberSelector.Ensures (contract quiet (Rule.depth .selector)) false true (Rule.Promise .selector) := by
  refine ensures_peek_some (fun start => ?_) rfl
  refine ensures_ite (fun _ => ?_) fun _ => ?_
  · refine ensures_bind (ensures_take fun name => ?_)
    refine ensures_bind (ensures_wouldAccept (ensures_then ?_) (ensures_else (ensures_pure (Rule.promise rfl rfl))))
    exact ensures_bind (ensures_parse rfl fun _ _ => ensures_pure (Rule.promise rfl rfl))
  refine ensures_bind (ensures_wouldAccept (ensures_then ?_) (ensures_else ?_))
  · exact ensures_bind (ensures_discard (ensures_accept fun _ => ensures_pure (Rule.promise rfl rfl)))
  refine ensures_bind (ensures_wouldAccept (ensures_then ?_) (ensures_else ?_))
  · exact ensures_parse rfl fun _ operand => Rule.promise operand rfl
  refine ensures_bind (ensures_tryAccept (ensures_then (ensures_pure (Rule.promise rfl rfl))) (ensures_else ?_))
  refine ensures_bind (ensures_tryAccept (ensures_then ?_) (ensures_else ?_))
  · exact ensures_parse rfl fun _ operand => Rule.promise operand rfl
  refine ensures_bind (ensures_tryAccept (ensures_then ?_) (ensures_else (ensures_illegal _)))
  exact ensures_innerCreatorRest fun _ operand => Rule.promise operand rfl

theorem looks_sizedDimensionNext : sizedDimensionNext.Looks := by
  refine looks_bind (looks_wouldAccept _ _) fun _ => looks_ite ?_ trivial
  exact looks_bind (looks_wouldAccept _ _) fun _ => trivial

/-! ## Modifiers -/

/-- Modifiers and annotations, where the routine for a modifier takes one or gives nothing. -/
theorem ensures_modifiersBy {Q : Bool → VariableModifiers → Prop} {modifier : Routine (Option Text)}
    (may : terms.mayFollow .annotationUse (free || moved))
    (found : ∀ {Q : Bool → Option Text → Prop}, (∀ m, Q true (some m)) → Q false none →
      modifier.Ensures terms (free || moved) false Q)
    (rest : ∀ acc, Q moved acc) : (modifiersBy modifier).Ensures terms free moved Q := by
  refine ensures_loop fun acc => ensures_bind (ensures_peek fun start => ensures_bind (found (fun m => ?_) ?_))
  · exact ensures_pure (turn_goes rfl)
  · refine ensures_bind (ensures_annotationAt (ensures_then ?_) (ensures_else ?_))
    · refine ensures_bind (ensures_bind (ensures_parse ?_ fun a _ => ensures_pure (ensures_pure (turn_goes rfl))))
      rw [Bool.or_false]
      exact may
    · refine ensures_pure (turn_ends ?_)
      rw [Bool.or_false]
      exact rest acc

end

/-! ## All rules -/

theorem led_ensures {quiet : Bool} (found : Body.Lead) :
    (led found).Ensures (contract quiet (Rule.depth .blockStatement)) false false
      (Rule.Promise .blockStatement) := by
  have declares (start : Option Token) : (localVariableAt start).Ensures
      (contract quiet (Rule.depth .blockStatement)) false false (Rule.Promise .blockStatement) :=
    ensures_bind (ensures_parse rfl fun _ shaped => ensures_pure (Rule.promise ((Tree.isObject_placeAt ..).trans shaped) rfl))
  cases found with
  | declaration => exact ensures_parse rfl fun _ shaped => Rule.promise shaped rfl
  | passed start annotated =>
    refine ensures_ite (fun _ => ensures_parse rfl fun _ shaped => Rule.promise shaped rfl) fun _ => ?_
    refine ensures_ite (fun _ => declares start) fun _ => ?_
    refine ensures_ite (fun _ => ensures_parse rfl fun _ shaped => Rule.promise shaped rfl) fun _ => ?_
    exact ensures_attempt (declares start) (ensures_parse rfl fun _ shaped => Rule.promise shaped rfl)

-- Sealed, so that a lemma is tried by the head of the condition, without computing it.
seal Routine.Ensures in
/-- **The routine of every rule** satisfies the condition, but for the one that calls a rule that there is not. Only a
statement in a block has a look-ahead that may not end. -/
theorem Rule.body_ensures {quiet : Bool} (r : Rule) (known : r ≠ .missingDeclarators)
    (allowed : quiet = true ∨ r ≠ .blockStatement) : r.body.Ensures (contract quiet r.depth) false false r.Promise := by
  cases r
  case identifier => exact ensures_accept fun _ => Rule.promise trivial rfl
  case missingDeclarators => exact absurd rfl known
  case infixOperator => exact infixOperator_ensures
  case expressionTwoRest => exact expressionTwoRest_ensures
  case expressionTwo => exact expressionTwo_ensures
  case expressionThree => exact expressionThree_ensures
  -- The token `super` before `::` stands for itself, so there has to be a token.
  case' primary => refine ensures_peek_some (fun start => ?_) rfl
  case modifiers =>
    refine ensures_bind (ensures_peek fun first => ?_)
    refine ensures_bind (ensures_modifiersBy rfl (fun some none => ?_) fun _ => ensures_pure (Rule.promise trivial rfl))
    refine ensures_bind (ensures_wouldAccept (ensures_then ?_) (ensures_else (ensures_pure none)))
    exact ensures_bind (ensures_accept fun m => ensures_pure (some m))
  case variableModifiers =>
    refine ensures_modifiersBy rfl (fun some none => ?_) fun _ => Rule.promise trivial rfl
    exact ensures_bind (ensures_tryAccept (ensures_then (ensures_pure (some _))) (ensures_else (ensures_pure none)))
  case blockStatement =>
    obtain rfl : quiet = true := allowed.resolve_right fun other => other rfl
    rw [Rule.body, blockStatement_eq]
    have statement : (parse .statement).Ensures (contract true (Rule.depth .blockStatement)) false false
        (Rule.Promise .blockStatement) :=
      ensures_parse rfl fun _ shaped => Rule.promise shaped rfl
    refine ensures_bind (ensures_wouldAccept (ensures_then statement) (ensures_else ?_))
    refine ensures_bind (ensures_wouldAccept (ensures_then statement) (ensures_else ?_))
    exact ensures_bind (ensures_lead led_ensures)
  all_goals
    clear allowed known
    -- Each step of a routine has its lemma; what is left is the shape of the value.
    repeat' first
      | with_reducible first
        | apply ensures_bind
        | intro _
        | apply ensures_pure
        | apply ensures_then
        | apply ensures_else
      | (with_reducible apply ensures_parse
         · rfl)
      | (with_reducible apply Rule.promise
         · first
           | apply rfl
           | assumption
           | apply trivial
           | exact Tree.hasDimensions_put (by assumption) _
           | exact isObject_segmentsType (by assumption)
           | exact Tree.isObject_of_isOperand (by assumption)
           | exact IsMember.of_method (by assumption)
           | exact IsMember.of_field (by assumption)
           | exact IsElement.of_constant (by assumption)
           | exact IsElement.of_method rfl rfl
           | exact ⟨rfl, rfl, _, _, rfl, rfl⟩
           | exact ⟨rfl, _, rfl, _, rfl⟩
           | exact ⟨_, _, rfl, rfl⟩
           | exact fun _ mem => absurd mem (Option.not_mem_none _)
           | exact fun _ mem => Option.some.inj mem ▸ by assumption
           | exact fun _ mem => Option.some.inj mem ▸ (isObject_on ..).trans (by assumption)
           | exact (Tree.isOperand_put ..).trans (by assumption)
           | exact (Tree.isOperand_placeAt ..).trans (by assumption)
           | (change Tree.isObject _ = true
              simp only [isObject_on, isObject_nameMember, isObject_nameMethod, isObject_nameFirst, Tree.isObject_put,
                Tree.isObject_placeAt]
              first
              | assumption
              | exact IsMember.isObject (by assumption)
              | exact IsElement.object (by assumption)
              | exact Tree.HasReturnType.isObject (And.right (by assumption)))
         · rfl)
      | with_reducible first
        | apply ensures_tryAccept
        | apply ensures_accept
        | apply ensures_discard
        | apply ensures_wouldAccept
        | apply ensures_ite
        | apply ensures_map
        | apply ensures_peek
        | apply ensures_illegal
        | apply ensures_take
        | apply ensures_annotationAt
        | apply ensures_annotationDeclarationAt
        | apply memberSelector_ensures
        | apply named_ensures
        | apply ensures_innerCreatorRest
        | apply ensures_loop
        | apply ensures_attempt
        | exact turn_goes rfl
        | apply turn_ends
      | (with_reducible apply And.intro
         · rfl
         · exact trivial)
      | (with_reducible apply ensures_genericInvocation
         · rfl)
      | refine ensures_bind ?_
      | refine ensures_separated (P := fun _ => True) ?_ fun _ _ _ => ?_
      | refine ensures_many (P := fun _ => True) ?_ fun _ _ _ => ?_
      | refine ensures_whileAccept (P := fun _ => True) ?_ fun _ _ => ?_
      | refine ensures_manyUntil (P := fun _ => True) ?_ fun _ _ => ?_
      | refine ensures_whileTrue (P := fun _ => True) (looks_peek _) ?_ fun _ _ => ?_
      | refine ensures_whileTrue (P := fun _ => True) looks_sizedDimensionNext ?_ fun _ _ => ?_
      | refine ensures_whileTrue (P := fun _ => True) (fun _ => trivial) ?_ fun _ _ => ?_
      | refine ensures_attempt ?_ ?_
      | refine ensures_ite (fun _ => ?_) fun _ => ?_
      | split

/-- **Reading by a rule** gives a value of the rule's shape, or fails as expected. -/
theorem Rule.reads_meets (known : r ≠ .missingDeclarators) (ahead : List Token) :
    (r.reads ahead).Meets (Expected ahead) ahead.length r.Promise := by
  refine Rule.readWithin_meets (fun r known => r.body_ensures known (.inl rfl)) ahead known suffix_rfl ?_
  have shallow := r.depth_le
  have rules : Rule.all.length = 104 := rfl
  rw [nestingOf, rules]
  omega

end JavaSource.Grammar

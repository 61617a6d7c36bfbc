import JavaSource.Proofs.Parentheses.Floors
import JavaSource.Proofs.Parser.Given

/-!
# No rule closes what it has not opened

Wherever a rule starts, and whatever follows, at every point of its reading it has closed no more parentheses than it
has opened: `Rule.closes_own`. It may have closed fewer, because after a syntax error the parser may return to a marker
behind parentheses that are then left open.
-/

namespace JavaSource.Grammar

open Body

section

variable {follow : Reader}

/-- The rules that are followed close no more than they open. -/
def FollowsEnclosed (follow : Reader) : Prop :=
  ∀ r : Rule, (parse r).ClosesAtMost follow 0

theorem atMost_parse (follows : FollowsEnclosed follow) (r : Rule) {depth : Nat} :
    (parse r).ClosesAtMost follow depth :=
  atMost_mono (follows r) (Nat.zero_le depth)

/-! ## Rules with parentheses -/

theorem atMost_modifiersBy (follows : FollowsEnclosed follow) {modifier : Routine (Option Text)}
    (closes : modifier.ClosesAtMost follow 0) : (modifiersBy modifier).ClosesAtMost follow 0 := by
  refine atMost_loop (fun acc => ?_) fun _ => atMost_pure _
  refine atMost_bind atMost_peek fun start => atMost_bind closes fun found => ?_
  cases found with
  | some m => exact atMost_pure _
  | none =>
    refine atMost_bind (atMost_quiet (looks_annotationAt 0).quiet) fun starts => atMost_ite ?_ (atMost_pure _)
    exact atMost_bind (atMost_bind (follows _) fun _ => atMost_pure _) fun _ => atMost_pure _

theorem atMost_selectorStart {t : Option Token} : (selectorStart t).ClosesAtMost follow 0 := by
  cases t with
  | none => exact atMost_fail _
  | some t => exact atMost_pure _

theorem atMost_operators : (whileTrue (do return isAmong (← peek) Vocabulary.prefixOperators) do
    let operator ← take
    return operator.value).ClosesAtMost follow 0 := by
  refine atMost_loop (fun _ => ?_) fun _ => atMost_pure _
  exact atMost_peekTake (plain_isAmong rfl) (fun _ => atMost_pure _) fun _ => atMost_pure _

-- Sealed, so that a lemma is tried by the head of the condition, without computing it.
seal Routine.ClosesAtMost in
theorem parenthesized_atMost (follows : FollowsEnclosed follow) : ∀ r ∈ [
      Rule.typeArgument, .annotationUse, .formalParameters, .annotationMethodOrConstantRest, .catchClause,
      .expression, .lambdaExpression, .parExpression, .arguments, .selector, .expressionThree, .identifierSuffix,
      .modifiers, .variableModifiers], r.body.ClosesAtMost follow 0 := by
  simp only [List.forall_mem_cons, List.not_mem_nil, false_implies, implies_true, and_true]
  repeat' with_reducible refine And.intro ?_ ?_
  all_goals
    simp only [Rule.body, argumentType, typeArgument, annotationUse, formalParameter,
      formalParameters, annotationMethodOrConstantRest, catchClause, expression,
      lambdaExpression, parExpression, arguments, optionalTypeArguments,
      innerCreatorRest, memberSelector, selector, castExpression, operand, expressionThree, identifierSuffix,
      anyModifier, finalModifier, modifiers, variableModifiers]
    -- Each step of a routine has its lemma; the depth behind the tokens that are taken is computed.
    repeat' first
      | (with_reducible apply atMost_discardAccept
         · rfl)
      | (with_reducible apply atMost_tryAccept
         · rfl)
      | (with_reducible apply atMost_wouldTake
         · rfl)
      | (with_reducible refine atMost_peekTake (plain_isAmong ?_) (fun _ => ?_) fun _ => ?_
         · rfl)
      | (with_reducible refine atMost_peekTake (plain_isOf ?_) (fun _ => ?_) fun _ => ?_
         · rfl)
      | (with_reducible apply atMost_separated
         · rfl)
      | (with_reducible apply atMost_acceptPlain
         · rfl)
      | (with_reducible apply atMost_tryPlain
         · rfl)
      | with_reducible first
        | apply atMost_parse follows
        | apply atMost_pure
        | apply atMost_illegal
        | apply atMost_peek
        | apply atMost_quiet (looks_wouldAccept _ _).quiet
        | apply atMost_operators
        | apply atMost_bind
        | apply atMost_then
        | apply atMost_else
        | apply atMost_ite
        | apply atMost_discard
        | apply atMost_map
        | apply atMost_manyUntil
        | apply atMost_many
        | apply atMost_attempt
        | refine atMost_loop (fun _ => ?_) atMost_pure
        | apply atMost_modifiersBy follows
        | apply atMost_selectorStart
        | intro _

theorem forStatementRest_atMost (follows : FollowsEnclosed follow) : forStatementRest.ClosesAtMost follow 0 := by
  refine atMost_discardAccept rfl fun _ => atMost_bind (follows _) fun control => ?_
  exact atMost_discardAccept rfl fun _ => atMost_bind (follows _) fun _ => atMost_pure _

/-! ## Resources -/

/-- A turn of a loop closes a parenthesis only if it is the last. -/
structure Routine.ClosesLast (follow : Reader) {α : Type} (turn : Routine (α × Bool)) : Prop where
  atMost : turn.ClosesAtMost follow 1
  goes : ∀ start ahead x, (∀ t ∈ start, t.Genuine) → (turn.read follow start).Gives (x, true) ahead →
    surplus start ≤ surplus ahead

section

variable {α β : Type}

theorem closesLast_bind {routine : Routine α} {f : α → Routine (β × Bool)} (first : routine.ClosesAtMost follow 0)
    (rest : ∀ a, (f a).ClosesLast follow) : (routine >>= f).ClosesLast follow := by
  refine ⟨atMost_bind first fun a => (rest a).atMost, fun start ahead x genuine gives => ?_⟩
  obtain ⟨a, mid, ⟨ok, rfl⟩, later⟩ := gives_bind gives
  have reached := (first start genuine).ok a ok
  have le := reached.le
  have further := (rest a).goes _ ahead x (genuine_of_above genuine reached) later
  omega

/-- The parenthesis is closed where the loop ends. -/
theorem closesLast_tryAccept (x : α) :
    (tryAccept [")"] >>= fun done => pure (x, !done) : Routine (α × Bool)).ClosesLast follow := by
  refine ⟨atMost_tryAccept rfl (atMost_pure (x, !true)) (atMost_pure (x, !false)), fun start ahead y _ gives => ?_⟩
  obtain ⟨done, same, tried⟩ := gives_made gives
  have open_ : done = false := by simpa using (congrArg Prod.snd same).symm
  rcases gives_tryAccept (List.cons_ne_nil (Text.ofString ")") []) tried with ⟨done, -⟩ | ⟨-, rfl, -⟩
  · exact absurd (open_.symm.trans done) Bool.false_ne_true
  · exact Int.le_refl _

theorem atMost_many_last {item : Routine (β × Bool)} (turn : item.ClosesLast follow) :
    (many item).ClosesAtMost follow 1 := by
  intro start genuine
  let step := fun (acc : List β) ahead => (item >>= fun x => pure (x.1 :: acc, x.2)).read follow ahead
  have turns : (repeated step (start.length + 2) [] start).Above (surplus start - (1 : Nat)) start := by
    refine repeated_above 1 (fun acc later genuine le => ?_) _ [] genuine (by omega)
    have above : (item.read follow later).Above (surplus start - (1 : Nat)) later :=
      (turn.atMost later genuine).mono (by omega)
    dsimp only [step]
    rw [Routine.read_monad_bind]
    refine ⟨above.andThen fun x ok => .here _ (above.ok x ok).le, fun acc' ok => ?_⟩
    obtain ⟨⟨x, more⟩, mid, gives, last⟩ := gives_andThen ⟨ok, rfl⟩
    obtain ⟨same, left⟩ := gives_pure last
    obtain rfl : true = more := congrArg Prod.snd same
    have further := turn.goes later mid x genuine gives
    rw [left]
    omega
  exact turns.andThen fun acc ok => .here _ (turns.ok acc ok).le

end

/-- The parenthesis around resources is closed in the last turn. -/
theorem resourceSpecification_atMost (follows : FollowsEnclosed follow) :
    resourceSpecification.ClosesAtMost follow 0 := by
  refine atMost_discardAccept rfl fun _ => atMost_many_last ?_
  refine closesLast_bind (follows _) fun resource => closesLast_bind (atMost_quiet (looks_wouldAccept _ _).quiet) fun _ => ?_
  dsimp only
  split
  · exact closesLast_bind (atMost_discard (atMost_acceptPlain rfl)) fun _ => closesLast_tryAccept resource
  · exact closesLast_tryAccept resource

/-! ## Statements -/

theorem switchLabel_atMost (follows : FollowsEnclosed follow) : switchLabel.ClosesAtMost follow 0 := by
  have colon {value : List Tree} : (discard (accept [":"]) >>= fun _ => pure value).ClosesAtMost follow 0 :=
    atMost_discardAccept rfl fun _ => atMost_pure value
  refine atMost_take fun t => ?_
  cases isCase : isWord (some t) "case" with
  | true =>
    refine .inl ⟨⟨.word (Text.ofString "case"), isCase, rfl⟩, atMost_then (atMost_bind ?_ fun _ => ?_)⟩
    · exact atMost_quiet (looks_wouldAccept _ _).quiet
    · exact atMost_ite (atMost_bind (atMost_map (follows _)) fun _ => colon) (atMost_bind (follows _) fun _ => colon)
  | false =>
    cases isDefault : isWord (some t) "default" with
    | true => exact .inl ⟨⟨.word (Text.ofString "default"), isDefault, rfl⟩, atMost_else (atMost_then colon)⟩
    | false => exact .inr ⟨_, rfl⟩

theorem switchBlockStatementGroup_atMost (follows : FollowsEnclosed follow) :
    switchBlockStatementGroup.ClosesAtMost follow 0 := by
  refine atMost_bind (atMost_many (atMost_bind (switchLabel_atMost follows) fun _ => ?_)) fun labels => ?_
  · exact atMost_bind atMost_peek fun _ => atMost_pure _
  refine atMost_bind (atMost_whileTrue ?_ (follows _)) fun _ => atMost_pure _
  exact atMost_bind atMost_peek fun _ => atMost_pure _

theorem led_atMost (follows : FollowsEnclosed follow) (found : Body.Lead) : (led found).ClosesAtMost follow 0 :=
    by
  have declares (start : Option Token) : (localVariableAt start).ClosesAtMost follow 0 :=
    atMost_bind (follows _) fun _ => atMost_pure _
  cases found with
  | declaration => exact follows _
  | passed start annotated =>
    refine atMost_ite (follows _) (atMost_ite (declares start) (atMost_ite (follows _) ?_))
    exact atMost_attempt (declares start) (follows _)

theorem blockStatement_atMost (follows : FollowsEnclosed follow) : blockStatement.ClosesAtMost follow 0 := by
  rw [blockStatement_eq]
  refine atMost_bind (atMost_quiet (looks_wouldAccept _ _).quiet) fun labelled => atMost_ite (follows _) ?_
  refine atMost_bind (atMost_quiet (looks_wouldAccept _ _).quiet) fun locked => atMost_ite (follows _) ?_
  exact atMost_bind (atMost_quiet quiet_lead) (led_atMost follows)

/-! ## All rules -/

seal Routine.ClosesAtMost in
/-- **The routine of every rule** closes no more than it opens. -/
theorem Rule.body_atMost (follows : FollowsEnclosed follow) (r : Rule) : r.body.ClosesAtMost follow 0 := by
  cases r
  case resourceSpecification => exact resourceSpecification_atMost follows
  case switchBlockStatementGroup => exact switchBlockStatementGroup_atMost follows
  case blockStatement => exact blockStatement_atMost follows
  case identifier => exact atMost_acceptPlain rfl
  case missingDeclarators => exact atMost_fail _
  all_goals try exact parenthesized_atMost follows _ (by decide)
  -- The other rules have no parentheses of their own.
  all_goals
    repeat' first
      | with_reducible first
        | apply atMost_bind
        | apply atMost_parse follows
        | apply atMost_pure
        | apply atMost_ite
        | intro _
        | apply atMost_quiet (looks_wouldAccept _ _).quiet
        | apply atMost_discard
        | apply atMost_peek
        | apply atMost_map
        | apply atMost_quiet (looks_annotationAt _).quiet
        | apply atMost_quiet (looks_annotationDeclarationAt _).quiet
        | apply atMost_illegal
        | apply atMost_fail
        | apply forStatementRest_atMost follows
        | apply atMost_manyUntil
        | apply atMost_whileTrue
        | apply atMost_many
        | apply atMost_attempt
        | apply atMost_loop
      | (with_reducible apply atMost_acceptPlain
         · rfl)
      | (with_reducible apply atMost_tryPlain
         · rfl)
      | (with_reducible apply atMost_separated
         · rfl)
      | refine atMost_bind ?_ ?_
      | (refine atMost_separated ?_ ?_
         · rfl)
      | refine atMost_many ?_
      | refine atMost_manyUntil ?_
      | refine atMost_whileTrue ?_ ?_
      | refine atMost_attempt ?_ ?_
      | refine atMost_ite ?_ ?_
      | exact atMost_pure _
      | split

end

theorem followsEnclosed_readWithin (n : Nat) : FollowsEnclosed (Rule.readWithin n) := by
  induction n with
  | zero => exact fun r start genuine => .failed _ _
  | succ n ih =>
    intro r start genuine
    rw [read_parse]
    exact r.body_atMost ih start genuine

/-- **No rule closes what it has not opened**: the surplus of what is left does not fall below that at the start. -/
theorem Rule.above_of_gives {n : Nat} {r : Rule} {ahead rest : List Token} {x : r.Result}
    (genuine : ∀ t ∈ ahead, t.Genuine) (gives : (r.readWithin n ahead).Gives x rest) :
    Above (surplus ahead) ahead rest := by
  have above := followsEnclosed_readWithin n r ahead genuine
  rw [read_parse] at above
  have reached := above.ok x gives.result
  rw [gives.ahead] at reached
  exact reached.mono (by omega)

end JavaSource.Grammar

import JavaSource.Grammar.Body

/-!
# The steps of routines

What the rules of the grammar do besides taking tokens and following rules: `Rule.body_orderly` says that they
never look back, and what they try before another reading.
-/

namespace JavaSource.Grammar

open Routine

/-- What is tried before the same tokens are read in another way. -/
inductive Tried : {α : Type} → Routine α → Prop
  | lambda : Tried (parse .lambdaExpression)
  | cast : Tried Body.castExpression
  | localVariable (start : Option Token) : Tried (Body.localVariableAt start)
  | control : Tried (parse .forVarControl)

/-- Whatever it meets, the routine looks at no token that was taken, and tries nothing but what the grammar
tries. `inText` says whether it may look for the end of the tokens in a text. -/
def Routine.OrderlyIn (inText : Bool) {α : Type} : Routine α → Prop
  | .pure _ => True
  | .fail failure => failure = .endInText → inText = true
  | .next k => ∀ t, (k t).OrderlyIn inText
  | .look i k => 0 ≤ i ∧ ∀ t, (k t).OrderlyIn inText
  | .call _ k => ∀ x, (k x).OrderlyIn inText
  | .attempt body k otherwise =>
    Tried body ∧ body.OrderlyIn inText ∧ (∀ x, (k x).OrderlyIn inText) ∧ otherwise.OrderlyIn inText
  | .loop _ body k => (∀ s, (body s).OrderlyIn inText) ∧ ∀ s, (k s).OrderlyIn inText

/-- The routine is orderly, and may look for the end of the tokens in a text. -/
abbrev Routine.Orderly {α : Type} (routine : Routine α) : Prop := routine.OrderlyIn true

variable {failure : ParseFailure}

namespace Routine

variable {α β : Type} {inText : Bool}

variable {routine : Routine α}

theorem orderly_bind {f : α → Routine β} (first : routine.OrderlyIn inText)
    (then_ : ∀ a, (f a).OrderlyIn inText) : (routine >>= f).OrderlyIn inText := by
  change (routine.bind f).OrderlyIn inText
  induction routine with
  | pure a => exact then_ a
  | fail failure => exact first
  | next k ih => exact fun t => ih t (first t) then_
  | look i k ih => exact ⟨first.1, fun t => ih _ (first.2 t) then_⟩
  | call r k ih => exact fun x => ih x (first x) then_
  | attempt body k otherwise _ ihRest ihOtherwise =>
    obtain ⟨allowed, body, rest, other⟩ := first
    exact ⟨allowed, body, fun x => ihRest x (rest x) then_, ihOtherwise other then_⟩
  | loop s body k _ ihRest => exact ⟨first.1, fun s => ihRest s (first.2 s) then_⟩

theorem orderly_pure (a : α) : (Pure.pure a : Routine α).OrderlyIn inText := trivial

theorem orderly_fail (may : failure = .endInText → inText = true) :
    (fail failure : Routine α).OrderlyIn inText := may

theorem orderly_loop {σ : Type} {s : σ} {body : σ → Routine (σ × Bool)} {rest : σ → Routine α}
    (body_orderly : ∀ s, (body s).OrderlyIn inText) (rest_orderly : ∀ s, (rest s).OrderlyIn inText) :
    (loop s body rest).OrderlyIn inText :=
  ⟨body_orderly, rest_orderly⟩

theorem orderly_ite {c : Prop} {_ : Decidable c} {yes no : Routine α} (yes_orderly : yes.OrderlyIn inText)
    (no_orderly : no.OrderlyIn inText) : (if c then yes else no).OrderlyIn inText := by
  split
  · exact yes_orderly
  · exact no_orderly

theorem orderly_discard (first : routine.OrderlyIn inText) : (discard routine).OrderlyIn inText :=
  orderly_bind first fun _ => trivial

theorem orderly_map {f : α → β} (first : routine.OrderlyIn inText) : (f <$> routine).OrderlyIn inText :=
  orderly_bind first fun _ => trivial

end Routine

/-! ## Simple routines -/

section Simple

variable {α β : Type} {inText : Bool}

theorem orderly_parse (called : Rule) : (parse called).OrderlyIn inText := fun _ => trivial

theorem orderly_take : take.OrderlyIn inText := fun _ => trivial

variable {i : Int}

theorem orderly_lookAt (ahead : 0 ≤ i) : (lookAt i).OrderlyIn inText :=
  ⟨ahead, fun _ => trivial⟩

theorem orderly_lookAt_nat (i : Nat) : (lookAt i).OrderlyIn inText :=
  orderly_lookAt (Int.natCast_nonneg i)

theorem orderly_peek : peek.OrderlyIn inText := orderly_lookAt (Int.le_refl 0)

theorem orderly_illegal (description : Text) : (illegal description : Routine α).OrderlyIn inText :=
  ⟨Int.le_refl 0, fun _ => ParseFailure.noConfusion⟩

theorem orderly_acceptFrom (value : Text) (patterns : List Pattern) :
    (acceptFrom value patterns).OrderlyIn inText := by
  induction patterns generalizing value with
  | nil => trivial
  | cons p rest ih =>
    refine orderly_bind orderly_take fun t => ?_
    exact orderly_ite (ih _) (orderly_illegal _)

theorem orderly_accept (patterns : List Pattern) : (accept patterns).OrderlyIn inText :=
  orderly_ite ParseFailure.noConfusion (orderly_acceptFrom [] patterns)

theorem orderly_wouldAcceptFrom (ahead : 0 ≤ i) (patterns : List Pattern) :
    (wouldAcceptFrom i patterns).OrderlyIn inText := by
  induction patterns generalizing i with
  | nil => trivial
  | cons p rest ih =>
    refine orderly_bind (orderly_lookAt ahead) fun t => ?_
    exact orderly_ite (ih (by omega)) trivial

theorem orderly_wouldAccept (patterns : List Pattern) : (wouldAccept patterns).OrderlyIn inText :=
  orderly_ite ParseFailure.noConfusion (orderly_wouldAcceptFrom (Int.le_refl 0) patterns)

theorem orderly_takeMany (n : Nat) : (takeMany n).OrderlyIn inText := by
  induction n with
  | zero => trivial
  | succ n ih => exact fun _ => ih

theorem orderly_tryAccept (patterns : List Pattern) : (tryAccept patterns).OrderlyIn inText := by
  refine orderly_bind (orderly_wouldAccept patterns) fun fits => ?_
  exact orderly_ite (orderly_bind (orderly_takeMany _) fun _ => trivial) trivial

theorem orderly_annotationAt (i : Nat) : (annotationAt i).OrderlyIn inText := by
  refine orderly_bind (orderly_lookAt_nat i) fun t => ?_
  exact orderly_ite (orderly_bind (orderly_lookAt (by omega)) fun _ => trivial) trivial

theorem orderly_annotationAt_zero : (annotationAt 0).OrderlyIn inText := orderly_annotationAt 0

theorem orderly_annotationDeclarationAt_zero : (annotationDeclarationAt 0).OrderlyIn inText := by
  refine orderly_bind (orderly_lookAt (Int.le_refl 0)) fun t => ?_
  exact orderly_ite (orderly_bind (orderly_lookAt (by omega)) fun _ => trivial) trivial

theorem orderly_many {item : Routine (β × Bool)} (item_orderly : item.OrderlyIn inText) :
    (many item).OrderlyIn inText :=
  ⟨fun _ => orderly_bind item_orderly fun _ => trivial, fun _ => trivial⟩

variable {item : Routine β}

theorem orderly_separated {separator : Pattern}
    (item_orderly : item.OrderlyIn inText) : (separated separator item).OrderlyIn inText :=
  orderly_many (orderly_bind item_orderly fun _ =>
    orderly_bind (orderly_tryAccept _) fun _ => trivial)

theorem orderly_whileTrue {test : Routine Bool}
    (test_orderly : test.OrderlyIn inText) (item_orderly : item.OrderlyIn inText) :
    (whileTrue test item).OrderlyIn inText := by
  refine ⟨fun acc => orderly_bind test_orderly fun more => ?_, fun _ => trivial⟩
  exact orderly_ite (orderly_bind item_orderly fun _ => trivial) trivial

theorem orderly_manyUntil {stop : Pattern}
    (item_orderly : item.OrderlyIn inText) : (manyUntil stop item).OrderlyIn inText :=
  orderly_whileTrue (orderly_bind (orderly_wouldAccept _) fun _ => trivial) item_orderly

end Simple

variable {inText : Bool}

variable {α : Type}

theorem Tried.orderly {routine : Routine α} (tried : Tried routine) : routine.OrderlyIn inText := by
  cases tried with
  | lambda => exact orderly_parse _
  | cast =>
    refine orderly_bind (orderly_discard (orderly_accept _)) fun _ => ?_
    refine orderly_bind (orderly_parse _) fun _ => ?_
    refine orderly_bind (orderly_discard (orderly_accept _)) fun _ => ?_
    exact orderly_bind (orderly_parse _) fun _ => orderly_pure _
  | localVariable => exact orderly_bind (orderly_parse _) fun _ => orderly_pure _
  | control => exact orderly_parse _

theorem Tried.orderly_attempt {body otherwise : Routine α} (tried : Tried body)
    (otherwise_orderly : otherwise.OrderlyIn inText) : (Routine.attempt body .pure otherwise).OrderlyIn inText :=
  ⟨tried, tried.orderly, fun _ => trivial, otherwise_orderly⟩

theorem orderly_placed (start : Option Token) : (Body.placedAnnotation start).OrderlyIn inText :=
  orderly_bind (orderly_parse _) fun _ => orderly_pure _

theorem orderly_modifiersBy {modifier : Routine (Option Text)} (orderly : modifier.OrderlyIn inText) :
    (Body.modifiersBy modifier).OrderlyIn inText := by
  refine orderly_loop (fun acc => ?_) fun _ => orderly_pure _
  refine orderly_bind orderly_peek fun start => orderly_bind orderly fun found => ?_
  cases found with
  | some m => exact orderly_pure _
  | none =>
    refine orderly_bind orderly_annotationAt_zero fun starts => ?_
    refine orderly_ite ?_ (orderly_pure _)
    exact orderly_bind (orderly_placed start) fun _ => orderly_pure _

/-! ## The rules of the grammar -/

theorem orderly_unbuilt {start : Int} {parts : List Tree}
    (fails : buildOperation start parts = .error failure) : (Routine.fail failure : Routine α).OrderlyIn inText := by
  rcases failure_of_buildOperation fails with rfl | rfl <;> exact ParseFailure.noConfusion

-- Sealed, so that a lemma is tried by the head of the condition, without computing it.
seal Routine.OrderlyIn in
/-- Only for the selectors of an operand is the end of the tokens looked for in a text. -/
theorem Rule.body_orderlyIn {r : Rule} (other : r ≠ .expressionThree) : r.body.OrderlyIn inText := by
  cases r
  case expressionThree => exact absurd rfl other
  all_goals
    repeat' first
      | with_reducible first
        | apply orderly_bind
        | apply orderly_parse
        | apply orderly_pure
        | apply orderly_ite
        | intro _
        | apply orderly_tryAccept
        | apply orderly_discard
        | apply orderly_accept
        | apply orderly_wouldAccept
        | apply orderly_peek
        | apply orderly_take
        | apply orderly_illegal
        | apply orderly_map
        | apply orderly_separated
        | apply orderly_manyUntil
        | apply orderly_whileTrue
        | apply orderly_many
        | apply orderly_modifiersBy
        | apply orderly_placed
        | apply orderly_loop
        | apply orderly_lookAt_nat
        | apply orderly_annotationAt
        | apply orderly_annotationAt_zero
        | apply orderly_annotationDeclarationAt_zero
        | exact (Tried.localVariable _).orderly
        | exact orderly_unbuilt ‹_›
        | refine Tried.orderly_attempt (by constructor) ?_
      | refine orderly_bind ?_ fun _ => ?_
      | exact orderly_fail ParseFailure.noConfusion
      | exact orderly_pure _
      | refine orderly_separated ?_
      | refine orderly_manyUntil ?_
      | refine orderly_whileTrue ?_ ?_
      | refine orderly_many ?_
      | refine orderly_modifiersBy ?_
      | refine orderly_loop (fun _ => ?_) fun _ => ?_
      | refine Tried.orderly_attempt (by constructor) ?_
      | refine orderly_ite ?_ ?_
      | split

theorem orderly_prefixOperators : (whileTrue (do return isAmong (← peek) Vocabulary.prefixOperators) do
    let operator ← take
    return operator.value).OrderlyIn inText :=
  orderly_whileTrue (orderly_bind orderly_peek fun _ => orderly_pure _)
    (orderly_bind orderly_take fun _ => orderly_pure _)

theorem orderly_postfixOperators (operators : List Text) : (Routine.loop operators (fun acc => do
    let t ← peek
    if isAmong t Vocabulary.postfixOperators then
      let operator ← take
      return (acc ++ [operator.value], true)
    else return (acc, false)) .pure).OrderlyIn inText := by
  refine orderly_loop (fun acc => orderly_bind orderly_peek fun t => ?_) fun _ => trivial
  exact orderly_ite (orderly_bind orderly_take fun _ => orderly_pure _) trivial

theorem operand_orderly (operators : List Text) : (Body.operand operators).Orderly := by
  refine orderly_bind (orderly_parse _) fun primary => ?_
  refine orderly_bind (orderly_loop (fun acc => ?_) fun _ => trivial) fun selectors => ?_
  · refine orderly_bind orderly_peek fun t => orderly_bind ?_ fun more => ?_
    · cases t with
      | none => exact orderly_fail fun _ => rfl
      | some t => trivial
    · exact orderly_ite (orderly_bind (orderly_parse _) fun _ => orderly_pure _) trivial
  · exact orderly_bind (orderly_postfixOperators []) fun _ => orderly_pure _

theorem expressionThree_orderly : Body.expressionThree.Orderly := by
  refine orderly_bind orderly_prefixOperators fun operators => ?_
  refine orderly_bind (orderly_wouldAccept _) fun opens => ?_
  refine orderly_ite ?_ (operand_orderly operators)
  exact Tried.lambda.orderly_attempt (Tried.cast.orderly_attempt (operand_orderly operators))

theorem Rule.body_orderly (r : Rule) : r.body.Orderly := by
  by_cases three : r = .expressionThree
  · subst three
    exact expressionThree_orderly
  · exact body_orderlyIn three

end JavaSource.Grammar

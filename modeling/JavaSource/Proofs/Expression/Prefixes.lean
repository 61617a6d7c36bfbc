import JavaSource.Proofs.Parser.Given
import JavaSource.Proofs.Parser.Restart
import JavaSource.Proofs.Rules.Bodies

/-!
# Operators before an operand

The operators before an operand are taken first, and what follows them is read as if they were not there:
`read_expressionThree_behind`. An operand gets them as an attribute in the end. A lambda expression and a cast are
given as soon as they are read, and have no place for operators: `follow_prefixed` says which trees keep the
operators and which ones lose them.
-/

namespace JavaSource

open Vocabulary List

variable {t : Tree}

namespace Tree

/-! ## Setting attributes -/

section

variable {a b : Attr} {t : Tree} (v w : Tree)

theorem assign_assign (fields : List (Attr × Tree)) : assign a v (assign a w fields) = assign a v fields := by
  induction fields with
  | nil => simp only [assign, if_true]
  | cons field rest ih =>
    obtain ⟨c, u⟩ := field
    by_cases same : a = c
    · simp only [assign, if_pos same, if_pos]
    · simp only [assign, if_neg same, ih]

/-- An attribute that is there keeps its place, whatever else is set. -/
theorem assign_comm (other : a ≠ b) {fields : List (Attr × Tree)} (has : (lookup a fields).isSome = true) :
    assign a v (assign b w fields) = assign b w (assign a v fields) := by
  induction fields with
  | nil => cases has
  | cons field rest ih =>
    obtain ⟨c, u⟩ := field
    by_cases here : a = c
    · subst here
      simp only [assign, if_pos, if_neg other.symm]
    · rw [lookup, if_neg here] at has
      by_cases there : b = c
      · subst there
        simp only [assign, if_pos, if_neg other]
      · simp only [assign, if_neg here, if_neg there, ih has]

theorem lookup_assign_other (other : a ≠ b) (fields : List (Attr × Tree)) :
    lookup a (assign b w fields) = lookup a fields := by
  induction fields with
  | nil => simp only [assign, lookup, if_neg other]
  | cons field rest ih =>
    obtain ⟨c, u⟩ := field
    by_cases there : b = c
    · subst there
      simp only [assign, if_pos, lookup, if_neg other]
    · simp only [assign, if_neg there, lookup, ih]

theorem put_put (t : Tree) : (t.put a w).put a v = t.put a v := by
  cases t <;> simp only [put, assign_assign]

/-- Other attributes do not change when one is set. -/
theorem get?_put_other (other : a ≠ b) (t : Tree) : (t.put b w).get? a = t.get? a := by
  cases t <;> simp only [put, get?, lookup_assign_other w other]

theorem put_comm (other : a ≠ b) (noValue : a ≠ .value) (has : (t.get? a).isSome = true) :
    (t.put b w).put a v = (t.put a v).put b w := by
  cases t with
  | node kind fields place => exact congrArg (node kind · place) (assign_comm v w other has)
  | token cls value position javadoc fields place =>
    rw [get?, if_neg noValue] at has
    exact congrArg (token cls value position javadoc · place) (assign_comm v w other has)
  | _ => cases has

end

/-- The tree of an operand with the operators before it, if it has a place for them. -/
def behind (operators : List Text) (t : Tree) : Tree :=
  if (t.get? .prefixOperators).isSome then t.put .prefixOperators (.ofTexts operators) else t

theorem behind_of_some (has : (t.get? .prefixOperators).isSome = true) (operators : List Text) :
    t.behind operators = t.put .prefixOperators (.ofTexts operators) := if_pos has

theorem behind_of_none (none : t.get? .prefixOperators = none) (operators : List Text) :
    t.behind operators = t := by
  rw [behind, none]
  rfl

/-- Operators that are set later replace those that were set before. -/
theorem behind_behind (operators before : List Text) (t : Tree) :
    (t.behind before).behind operators = t.behind operators := by
  cases has : t.get? .prefixOperators with
  | none => rw [behind_of_none has, behind_of_none has]
  | some v =>
    have object := isObject_of_get? has
    have some_has : (t.get? .prefixOperators).isSome = true := by rw [has]; rfl
    rw [behind_of_some some_has, behind_of_some some_has, behind_of_some, put_put]
    rw [get?_put object (by decide)]
    rfl

/-- The operators are there exactly if there is a place for them. -/
theorem get?_behind_iff (operators : List Text) (t : Tree) :
    (t.behind operators).get? .prefixOperators = some (.ofTexts operators) ↔
      (t.get? .prefixOperators).isSome = true := by
  cases has : t.get? .prefixOperators with
  | none => simp [behind_of_none has, has]
  | some v =>
    rw [behind_of_some (by rw [has]; rfl), get?_put (isObject_of_get? has) (by decide)]
    exact iff_of_true rfl rfl

end Tree

variable {α : Type}

namespace Grammar

open Body Routine Outcome
open Rule (readWithin)

theorem Outcome.andThen_congr {β : Type} {o : Outcome α} {f g : α → List Token → Outcome β}
    (same : ∀ a, o.result = .ok a → f a o.ahead = g a o.ahead) : o.andThen f = o.andThen g := by
  cases result : o.result with
  | error failure => rw [andThen_error result, andThen_error result]
  | ok a => rw [andThen_ok result, andThen_ok result, same a result]

variable {n : Nat} {r : Rule} {ahead : List Token}

/-- What a rule gives has its shape, to whatever depth it is read. -/
theorem Rule.shaped_of_readWithin (known : r ≠ .missingDeclarators)
    {x : r.Result} (read : (r.readWithin n ahead).result = .ok x) : r.Shaped x := by
  obtain ⟨m, le, enough⟩ : ∃ m, n ≤ m ∧ Rule.all.length * ahead.length + r.depth < m :=
    ⟨n + (Rule.all.length * ahead.length + r.depth + 1), by omega, by omega⟩
  have deep := Rule.readWithin_meets (fun r known => r.body_ensures known (.inl rfl)) ahead known suffix_rfl enough
  rcases Rule.readWithin_upTo le r ahead with endless | same
  · cases endless.symm.trans read
  · obtain ⟨moved, promise, -⟩ := deep.value x (same ▸ read)
    exact promise.1

/-- What is given to some depth is given to every greater depth. -/
theorem gives_deeper {m : Nat} {rest : List Token} {x : r.Result} (le : n ≤ m)
    (gives : (r.readWithin n ahead).Gives x rest) : (r.readWithin m ahead).Gives x rest := by
  rcases Rule.readWithin_upTo le r ahead with endless | same
  · cases endless.symm.trans gives.result
  · exact same ▸ gives

section

variable {follow : Reader}

/-! ## Operators -/

/-- The operators before an operand are taken one by one. The induction is on them. -/
theorem read_prefixOperators {operators e : List Token}
    (known : ∀ t ∈ operators, t.value ∈ prefixOperators)
    (ends : isAmong e[0]? prefixOperators = false) :
    (whileTrue (do return isAmong (← peek) prefixOperators) do
      let operator ← take
      return operator.value).read follow (operators ++ e) = .ok (operators.map Token.value) e := by
  refine Turns.read_whileTrue ?_ (by simp only [length_map, length_append]; omega)
  induction operators with
  | nil =>
    refine .done ?_
    rw [nil_append, read_bind_ok (read_peek ..), ends]
    rfl
  | cons t operators ih =>
    obtain ⟨here, known⟩ := forall_mem_cons.1 known
    refine .more ?_ rfl (ih known)
    rw [cons_append, read_bind_ok (read_peek ..), List.getElem?_cons_zero, isAmong_some.2 here]
    rfl

/-- What is read behind the operators before an operand. -/
def Body.behindOperators (operators : List Text) : Routine Tree := do
  if ← wouldAccept ["("] then
    .attempt (parse .lambdaExpression) .pure (.attempt castExpression .pure (operand operators))
  else operand operators

variable {e : List Token}

/-- Behind the operators, the tokens are read as if they were the first. -/
theorem read_expressionThree_behind {operators : List Token}
    (known : ∀ t ∈ operators, t.value ∈ prefixOperators)
    (ends : isAmong e[0]? prefixOperators = false) : expressionThree.read follow (operators ++ e) =
      (behindOperators (operators.map Token.value)).read follow e := by
  rw [expressionThree, read_bind_ok (read_prefixOperators known ends)]
  rfl

/-- Without operators, the tokens are read from the first on. -/
theorem read_expressionThree_alone (first : isAmong e[0]? prefixOperators = false) :
    expressionThree.read follow e = (behindOperators []).read follow e := by
  have known : ∀ t ∈ ([] : List Token), t.value ∈ prefixOperators := by simp
  exact read_expressionThree_behind known first

/-! ## Trees -/

/-- An attempt that gives what does not change, before another reading that changes. -/
theorem read_attempt_changed {f : α → α} {body otherwise changed : Routine α}
    (kept : ∀ x, (body.read follow ahead).result = .ok x → f x = x) (changes : ∀ ahead, changed.read follow ahead =
      (otherwise.read follow ahead).andThen fun x ahead => .ok (f x) ahead) :
    (Routine.attempt body .pure changed).read follow ahead =
      ((Routine.attempt body .pure otherwise).read follow ahead).andThen
        fun x ahead => .ok (f x) ahead := by
  simp only [Routine.read]
  cases tried : (body.read follow ahead).result with
  | ok x => simp only [Outcome.andThen, kept x tried, Option.none_or]
  | error failure =>
    by_cases illegal : failure.isIllegal = true
    · simp only [if_pos illegal, changes]
    · simp only [if_neg illegal, Outcome.andThen]

/-- What an attempt gives is what was tried, or what was read instead. -/
theorem gives_attempt {body otherwise : Routine α} {x : α} {rest : List Token}
    (gives : ((Routine.attempt body .pure otherwise).read follow ahead).Gives x rest) :
    (body.read follow ahead).Gives x rest ∨
      (otherwise.read follow ((body.read follow ahead).mark ahead)).Gives x rest := by
  rw [Routine.read] at gives
  split at gives
  · rename_i ok
    obtain ⟨_, _, first, gives⟩ := gives_andThen gives
    cases first.result
    obtain ⟨rfl, rfl⟩ := gives_pure gives
    exact .inl ⟨ok, first.ahead⟩
  · split at gives
    · exact .inr gives
    · cases gives.result

theorem gives_castExpression {rest : List Token}
    (gives : (castExpression.read follow ahead).Gives t rest) :
    ∃ opening later type closing e x, ahead = opening :: later ∧ opening.value = Text.ofString "(" ∧
      (follow .type later).Gives type (closing :: e) ∧ closing.value = Text.ofString ")" ∧
        (follow .expressionThree e).Gives x rest ∧ t = .make .cast [(.type, type), (.expression, x)] := by
  obtain ⟨opening, later, rfl, opens, gives⟩ := gives_accepted gives
  obtain ⟨type, mid, typed, gives⟩ := gives_bind gives
  obtain ⟨closing, e, rfl, closes, gives⟩ := gives_accepted gives
  obtain ⟨x, rfl, read⟩ := gives_made gives
  exact ⟨opening, later, type, closing, e, x, rfl, isWord_some.1 opens, gives_parse typed, isWord_some.1 closes,
    gives_parse read, rfl⟩

end

theorem gives_lambdaExpression {rest : List Token}
    (gives : (Rule.lambdaExpression.readWithin n ahead).Gives t rest) :
    ∃ parameters body, t = .make .lambdaExpression [(.parameters, .list parameters), (.body, body)] := by
  obtain ⟨n, rfl, gives⟩ := gives_rule gives
  change (lambdaExpression.read (readWithin n) ahead).Gives t rest at gives
  obtain ⟨_, _, _, gives⟩ := gives_bind gives
  dsimp only at gives
  split at gives
  · obtain ⟨_, _, _, gives⟩ := gives_bind gives
    obtain ⟨parameters, _, _, gives⟩ := gives_bind gives
    obtain ⟨_, _, _, gives⟩ := gives_bind gives
    obtain ⟨_, _, _, gives⟩ := gives_bind gives
    obtain ⟨body, _, _, gives⟩ := gives_bind gives
    exact ⟨_, body, (gives_pure gives).1⟩
  · obtain ⟨parameters, _, _, gives⟩ := gives_bind gives
    obtain ⟨body, _, _, gives⟩ := gives_bind gives
    exact ⟨parameters, body, (gives_pure gives).1⟩

section

variable {n : Nat} {ahead rest : List Token} {t : Tree}

/-- An operand has a place for the operators before it. -/
theorem operand_has (gives : ((operand []).read (readWithin n) ahead).Gives t rest) :
    (t.get? .prefixOperators).isSome = true := by
  obtain ⟨primary, _, first, gives⟩ := gives_bind gives
  obtain ⟨selectors, _, _, gives⟩ := gives_bind gives
  obtain ⟨postfixes, rfl, _⟩ := gives_made gives
  have shaped : primary.isOperand = true := Rule.shaped_of_readWithin (by decide) (gives_parse first).result
  rw [Tree.get?_put_other _ (by decide), Tree.get?_put_other _ (by decide),
    Tree.get?_put (Tree.isObject_of_isOperand shaped) (by decide)]
  rfl

/-- The operators replace those that were set first. -/
theorem behind_operand {primary : Tree} (shaped : primary.isOperand = true) (operators : List Text)
    (selectors postfixes : Tree) :
    (((primary.put .prefixOperators (.ofTexts [])).put .selectors selectors).put .postfixOperators
      postfixes).behind operators =
        ((primary.put .prefixOperators (.ofTexts operators)).put .selectors selectors).put .postfixOperators
          postfixes := by
  have object := Tree.isObject_of_isOperand shaped
  have has : ((primary.put .prefixOperators (.ofTexts [])).get? .prefixOperators).isSome = true := by
    rw [Tree.get?_put object (by decide)]
    rfl
  have hasThen : (((primary.put .prefixOperators (.ofTexts [])).put .selectors selectors).get?
      .prefixOperators).isSome = true := by
    rwa [Tree.get?_put_other _ (by decide)]
  rw [Tree.behind_of_some (by rwa [Tree.get?_put_other _ (by decide)]),
    Tree.put_comm _ _ (by decide) (by decide) hasThen, Tree.put_comm _ _ (by decide) (by decide) has, Tree.put_put]

/-- An operand gets the operators before it in the end. -/
theorem read_operand_behind (operators : List Text) (ahead : List Token) :
    (operand operators).read (readWithin n) ahead =
      ((operand []).read (readWithin n) ahead).andThen
        fun t ahead => .ok (t.behind operators) ahead := by
  rw [operand, operand, read_monad_bind, read_monad_bind, andThen_assoc, read_parse]
  refine andThen_congr fun primary ok => ?_
  have shaped : primary.isOperand = true := Rule.shaped_of_readWithin (by decide) ok
  simp only [read_monad_bind, andThen_assoc, read_monad_pure, andThen_pure,
    behind_operand shaped]

/-- What is read behind operators is a lambda expression, a cast or an operand. -/
theorem gives_behindOperators (gives : ((behindOperators []).read (readWithin n) ahead).Gives t rest) :
    (isWord ahead[0]? "(" = true ∧ (Rule.lambdaExpression.readWithin n ahead).Gives t rest) ∨
      (isWord ahead[0]? "(" = true ∧
        ∃ later, later <:+ ahead ∧ (castExpression.read (readWithin n) later).Gives t rest) ∨
      ∃ later, ((operand []).read (readWithin n) later).Gives t rest := by
  obtain ⟨opens, mid, first, gives⟩ := gives_bind gives
  obtain ⟨rfl, rfl⟩ := gives_wouldAccept first
  split at gives
  · rename_i opens
    rcases gives_attempt gives with lambda | gives
    · exact .inl ⟨opens, gives_parse lambda⟩
    · rcases gives_attempt gives with cast | gives
      · have suffix := (read_within (Rule.readWithin_within n) (parse .lambdaExpression) mid).mark
        exact .inr (.inl ⟨opens, _, suffix, cast⟩)
      · exact .inr (.inr ⟨_, gives⟩)
  · exact .inr (.inr ⟨_, gives⟩)

/-- What is read behind operators has a place for them, or it is a lambda expression or a cast. -/
theorem behindOperators_cases (gives : ((behindOperators []).read (readWithin n) ahead).Gives t rest) :
    (t.get? .prefixOperators).isSome = true ∨
      t.get? .prefixOperators = none ∧ isWord ahead[0]? "(" = true ∧
        (t.isA .lambdaExpression = true ∨ t.isA .cast = true) := by
  rcases gives_behindOperators gives with ⟨opens, lambda⟩ | ⟨opens, later, -, cast⟩ | ⟨later, gives⟩
  · obtain ⟨parameters, body, rfl⟩ := gives_lambdaExpression lambda
    exact .inr ⟨rfl, opens, .inl rfl⟩
  · obtain ⟨-, -, type, -, -, x, -, -, -, -, -, rfl⟩ := gives_castExpression cast
    exact .inr ⟨rfl, opens, .inr rfl⟩
  · exact .inl (operand_has gives)

/-- **Behind operators**, what is read is the same as without them, and gets them if it has a place for them. -/
theorem read_behindOperators (operators : List Text) (ahead : List Token) :
    (behindOperators operators).read (readWithin n) ahead =
      ((behindOperators []).read (readWithin n) ahead).andThen
        fun t ahead => .ok (t.behind operators) ahead := by
  simp only [behindOperators, read_monad_bind, read_wouldAccept_one, andThen_pure]
  split
  · refine read_attempt_changed (fun t ok => ?_) fun ahead =>
      read_attempt_changed (fun t ok => ?_) (read_operand_behind operators)
    · rw [read_parse] at ok
      obtain ⟨parameters, body, rfl⟩ := gives_lambdaExpression ⟨ok, rfl⟩
      rfl
    · obtain ⟨-, -, type, -, -, x, -, -, -, -, -, rfl⟩ := gives_castExpression ⟨ok, rfl⟩
      rfl
  · exact read_operand_behind operators ahead

variable {operators e : List Token} (known : ∀ t ∈ operators, t.value ∈ prefixOperators)
  (first : isAmong e[0]? prefixOperators = false)

include known first in
theorem readWithin_prefixed (n : Nat) : Rule.expressionThree.readWithin (n + 1) (operators ++ e) =
      (Rule.expressionThree.readWithin (n + 1) e).andThen
        fun t ahead => .ok (t.behind (operators.map Token.value)) ahead := by
  change expressionThree.read (readWithin n) (operators ++ e) =
    (expressionThree.read (readWithin n) e).andThen _
  rw [read_expressionThree_behind known first, read_behindOperators, read_expressionThree_alone first]

include known first in
/-- **An operand behind operators.** It leaves the same tokens as without them. -/
theorem reads_prefixed (gives : (Rule.expressionThree.reads e).Gives t rest) :
    (Rule.expressionThree.reads (operators ++ e)).Gives (t.behind (operators.map Token.value)) rest := by
  have le : nestingOf e.length ≤ nestingOf (operators ++ e).length := by
    simp only [nestingOf, length_append]
    exact Nat.succ_le_succ (Nat.mul_le_mul_left _ (by omega))
  have read := readWithin_prefixed known first (Rule.all.length * ((operators ++ e).length + 1))
  change Rule.expressionThree.reads (operators ++ e) =
    (Rule.expressionThree.readWithin (nestingOf (operators ++ e).length) e).andThen _ at read
  rw [read]
  exact gives_of_andThen (gives_deeper le gives) ⟨rfl, rfl⟩

end

end Grammar

namespace Parser

open Grammar

/-- **Operators before an operand.** Behind any operators, an operand is read that is read without them, and the
same tokens are left. Its operators are exactly those before it if the operand alone has a place for operators. If
it has none, then it starts with a parenthesis and is a lambda expression or a cast, and the operators are lost. -/
theorem follow_prefixed {p q : Parser} {operators e : List Token} (alone : p.Facing e)
    (behind : q.Facing (operators ++ e)) (known : ∀ t ∈ operators, t.value ∈ Vocabulary.prefixOperators)
    (first : isAmong e[0]? Vocabulary.prefixOperators = false) {t : Tree}
    (read : (p.run (follow plainly .expressionThree)).1 = .ok t) :
    ∃ t', (q.run (follow plainly .expressionThree)).1 = .ok t' ∧
      (∃ rest, (p.run (follow plainly .expressionThree)).2.Facing rest ∧
        (q.run (follow plainly .expressionThree)).2.Facing rest) ∧
      (t'.get? .prefixOperators = some (.ofTexts (operators.map Token.value)) ↔
        (t.get? .prefixOperators).isSome = true) ∧
      ((t.get? .prefixOperators).isSome = true →
        t' = t.put .prefixOperators (.ofTexts (operators.map Token.value))) ∧
      (t.get? .prefixOperators = none → t' = t ∧ isWord e[0]? "(" = true ∧
        (t.isA .lambdaExpression = true ∨ t.isA .cast = true)) := by
  have does := follow_does .expressionThree alone
  have does' := follow_does .expressionThree behind
  have gives : (Rule.expressionThree.reads e).Gives t (Rule.expressionThree.reads e).ahead :=
    ⟨does.result ▸ read, rfl⟩
  have gives' := reads_prefixed known first gives
  refine ⟨t.behind (operators.map Token.value), does'.result.trans gives'.result,
    ⟨_, does.moved.facing, gives'.ahead ▸ does'.moved.facing⟩, Tree.get?_behind_iff _ t,
    fun has => Tree.behind_of_some has _, fun none => ⟨Tree.behind_of_none none _, ?_⟩⟩
  have alone : Rule.expressionThree.reads e = (Body.behindOperators []).read (Rule.readWithin _) e :=
    read_expressionThree_alone first
  rw [alone] at gives
  rcases behindOperators_cases gives with has | ⟨-, opens, kind⟩
  · rw [none] at has
    cases has
  · exact ⟨opens, kind⟩

theorem exists_ok {ε : Type} {result : Except ε α} (succeeds : result.toBool = true) : ∃ a, result = .ok a := by
  cases result with
  | error failure => cases succeeds
  | ok a => exact ⟨a, rfl⟩

theorem eq_ok_of_toOption {ε : Type} {result : Except ε α} {a : α} (given : result.toOption = some a) :
    result = .ok a := by
  cases result with
  | error failure => cases given
  | ok b => exact congrArg _ (Option.some.inj given)

theorem exists_ok_of_any {ε : Type} {result : Except ε α} {p : α → Bool} (any : result.toOption.any p = true) :
    ∃ a, result = .ok a ∧ p a = true := by
  cases result with
  | error failure => cases any
  | ok a => exact ⟨a, rfl, any⟩

/-- Two operators before a member with an operator behind it. -/
theorem follow_prefixed_member : (∀ t ∈ tokensOf "! -", t.value ∈ Vocabulary.prefixOperators) ∧
      ∃ t, ((ofTokens (tokensOf "! -" ++ tokensOf "a.b++;")).run (follow plainly .expressionThree)).1 = .ok t ∧
        t.get? .prefixOperators = some (.ofTexts ["!", "-"]) := by
  obtain ⟨known, values, noOperator, alone⟩ : (∀ t ∈ tokensOf "! -", t.value ∈ prefixOperators) ∧
      (tokensOf "! -").map Token.value = ["!", "-"] ∧ isAmong (tokensOf "a.b++;")[0]? prefixOperators = false ∧
      ((ofTokens (tokensOf "a.b++;")).run (follow plainly .expressionThree)).1.toOption.any
        (fun t => (t.get? .prefixOperators).isSome) = true := by decide +kernel
  obtain ⟨t, read, alone⟩ := exists_ok_of_any alone
  obtain ⟨t', read', -, kept, -⟩ := follow_prefixed (facing_ofTokens _) (facing_ofTokens _) known noOperator read
  rw [values] at kept
  exact ⟨known, t', read', kept.2 alone⟩

/-- Not every operand keeps the operators before it: a cast does not. -/
theorem prefix_lost_before_cast :
    ¬ ∀ operators e : List Token, (∀ t ∈ operators, t.value ∈ Vocabulary.prefixOperators) →
      isAmong e[0]? Vocabulary.prefixOperators = false →
      ((ofTokens e).run (follow plainly .expressionThree)).1.toBool = true →
      ∃ t, ((ofTokens (operators ++ e)).run (follow plainly .expressionThree)).1 = .ok t ∧
        t.get? .prefixOperators = some (.ofTexts (operators.map Token.value)) := by
  intro keep
  obtain ⟨known, noOperator, succeeds, lost⟩ : (∀ t ∈ tokensOf "-", t.value ∈ prefixOperators) ∧
      isAmong (tokensOf "(int) x;")[0]? prefixOperators = false ∧
      ((ofTokens (tokensOf "(int) x;")).run (follow plainly .expressionThree)).1.toBool = true ∧
      ((ofTokens (tokensOf "-" ++ tokensOf "(int) x;")).run (follow plainly .expressionThree)).1.toOption.any
        (fun t => (t.get? .prefixOperators).isSome) = false := by decide +kernel
  obtain ⟨t, read, kept⟩ := keep _ _ known noOperator succeeds
  rw [read] at lost
  change (t.get? .prefixOperators).isSome = false at lost
  rw [kept] at lost
  cases lost

end Parser

end JavaSource

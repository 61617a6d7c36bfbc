import JavaSource.Proofs.Expression.Prefixes
import JavaSource.Proofs.Types.Completeness

/-!
# Casts

A type in parentheses is read as a cast wherever an operand follows it, whatever the first token of this operand is.
-/

open List JavaSource.Text JavaSource.Vocabulary

namespace JavaSource.Grammar

open Body Lexer Outcome Pattern
open Rule (readWithin)
open Routine (read_bind_ok read_monad_bind read_monad_pure)

/-- There is a syntax error, with no marker handed down. -/
structure Outcome.Rejected {α : Type} (o : Outcome α) : Prop where
  failed : ∃ description found, o.result = .error (.illegal description found)
  handed : o.handed = none

variable {ahead rest : List Token}

section

variable {follow : Reader} {α β : Type}

theorem Outcome.Rejected.andThen {o : Outcome α} (rejected : o.Rejected) (f : α → List Token → Outcome β) :
    (o.andThen f).Rejected := by
  obtain ⟨⟨description, found, failed⟩, handed⟩ := rejected
  rw [andThen_error failed]
  exact ⟨⟨description, found, rfl⟩, handed⟩

variable {body : Routine α}

/-- An attempt that is rejected leads back to where it started. -/
theorem read_attempt_rejected (rejected : (body.read follow ahead).Rejected)
    (otherwise : Routine α) :
    (Routine.attempt body .pure otherwise).read follow ahead = otherwise.read follow ahead := by
  obtain ⟨⟨description, found, failed⟩, handed⟩ := rejected
  simp only [Routine.read, failed, ParseFailure.isIllegal, if_true, Outcome.mark, handed, Option.getD_none]

theorem attempt_gives {x : α}
    (gives : (body.read follow ahead).Gives x rest) (otherwise : Routine α) :
    ((Routine.attempt body .pure otherwise).read follow ahead).Gives x rest := by
  simp only [Routine.read, gives.result]
  exact gives_of_andThen ⟨rfl, gives.ahead⟩ ⟨rfl, rfl⟩

end

/-! ## A type in parentheses is no list of parameters -/

/-- Words and signs that are no names. -/
def nameless : List Text :=
  Vocabulary.texts
    ["final", "this", "super", "new", "class", "enum", "interface", "@", "(", ")", "<", ":"]

variable {word : Text}

theorem not_isName (mem : word ∈ nameless) : ¬ IsName word := by
  have all : ∀ word ∈ nameless, ¬ IsName word := by decide
  exact all word mem

/-- The words that can be second in a type. -/
def secondWords : List Text := Vocabulary.texts ["[", "<", "."]

theorem JavaType.flatten_cons (type : JavaType) :
    ∃ word words, type.flatten = word :: words ∧ ∀ second ∈ words.head?, second ∈ secondWords := by
  have bracketed (dimensions : Nat) : ∀ second ∈ (brackets dimensions).head?, second ∈ secondWords := by
    cases dimensions with
    | zero => exact fun _ mem => absurd mem (Option.not_mem_none _)
    | succ dimensions => exact fun _ mem => Option.some.inj mem ▸ by decide
  have further {word : Text} {words : List Text} (known : word ∈ secondWords) :
      ∀ second ∈ (word :: words).head?, second ∈ secondWords := fun _ mem => Option.some.inj mem ▸ known
  cases type with
  | primitive name dimensions => exact ⟨name.text, brackets dimensions, rfl, bracketed dimensions⟩
  | reference type dimensions =>
    cases type with
    | last name arguments =>
      cases arguments with
      | none => exact ⟨name.text, brackets dimensions, rfl, bracketed dimensions⟩
      | angle items => exact ⟨name.text, _, rfl, further (by decide)⟩
    | dot name arguments sub =>
      cases arguments with
      | none => exact ⟨name.text, _, rfl, further (by decide)⟩
      | angle items => exact ⟨name.text, _, rfl, further (by decide)⟩

section

variable {opening closing : Token} {ahead e : List Token} {type : JavaType}
  (opens : opening.value = ofString "(") (closes : closing.value = ofString ")") (worded : closing.Worded)
  (written : Written type.flatten ahead (closing :: e)) {n : Nat}

include closes in
theorem ends_closing : Ends (closing :: e) :=
  ⟨startsWith_ne (closes ▸ by decide) _ _, startsWith_ne (closes ▸ by decide) _ _,
    startsWith_ne (closes ▸ by decide) _ _⟩

include closes written in
/-- No parameters follow that are told by their names alone. -/
theorem not_inferred : fitAll ["(", .cls .identifier, ","] (opening :: ahead) = false := by
  obtain ⟨word, words, flat, second⟩ := type.flatten_cons
  obtain ⟨used, rfl, values, -⟩ := written
  rw [flat] at values
  obtain ⟨t, used, rfl, -, rfl⟩ := map_eq_cons_iff.1 values
  have comma : Pattern.fits (used ++ closing :: e)[0]? (.word (ofString ",")) = false := by
    cases used with
    | nil => exact unfit_word (closes ▸ by decide)
    | cons u used => exact unfit_word fun same => absurd (same ▸ second u.value rfl) (by decide)
  simp only [fitAll, cons_append, tail_cons, comma, Bool.false_and, Bool.and_false]

include written in
theorem type_head : ∃ t later, ahead = t :: later ∧ (t.cls = .identifier ∨ t.cls = .basicType) ∧
    ∀ word, ¬ IsName word → word ∉ basicTypes → t.value ≠ word := by
  cases type with
  | primitive name dimensions =>
    obtain ⟨t, later, rfl, value, worded⟩ := Written.head written
    refine ⟨t, later, rfl, .inr (worded.basicType.2 (value ▸ name.mem)), fun word _ noType same => noType ?_⟩
    rw [← same, value]
    exact name.mem
  | reference type dimensions =>
    obtain ⟨name, words, flat⟩ := type.flatten_cons
    rw [JavaType.flatten, flat] at written
    obtain ⟨t, later, rfl, value, worded⟩ := Written.head written
    refine ⟨t, later, rfl, .inl (worded.identifier.2 (value ▸ name.isName)), fun word noName _ same => noName ?_⟩
    rw [← same, value]
    exact name.isName

include written in
theorem type_head_unfit {word : String} (noName : ¬ IsName (ofString word))
    (noType : ofString word ∉ basicTypes) : Pattern.fits ahead[0]? (.word word) = false := by
  obtain ⟨t, later, rfl, -, ne⟩ := type_head written
  exact unfit_word (ne _ noName noType)

include written in
theorem read_variableModifiers :
    (parse .variableModifiers).read (readWithin (n + 1)) ahead = .ok ⟨[], []⟩ ahead := by
  have noFinal : finalModifier.read (readWithin n) ahead = .ok none ahead :=
    read_finalModifier_none (type_head_unfit written (not_isName (by decide)) (by decide))
  have noAnnotation : annotated ahead = false := by
    obtain ⟨t, later, rfl, cls, -⟩ := type_head written
    have noSign : isOf (some t) .atSign = false := by
      rcases cls with cls | cls <;> exact isOf_of_cls cls rfl
    rw [annotated, getElem?_cons_zero, noSign, Bool.false_and]
  rw [read_parse]
  change (modifiersBy finalModifier).read (readWithin n) ahead = _
  rw [read_modifiersBy, readModifiers_ended noFinal noAnnotation]

include closes worded written in
/-- A parameter has a name behind its type. -/
theorem formalParameter_rejected (enough : 2 * type.flatten.length + 2 ≤ n) :
    (formalParameter.read (readWithin n) ahead).Rejected := by
  obtain ⟨m, rfl⟩ : ∃ m, n = m + 1 := ⟨n - 1, by omega⟩
  have noName : Pattern.fits (some closing) (.cls .identifier) = false := by
    have other : closing.cls ≠ .identifier := by
      rw [ne_eq, worded.identifier, closes]
      exact not_isName (by decide)
    cases fits : Pattern.fits (some closing) (.cls .identifier) with
    | false => rfl
    | true => exact absurd (cls_of_identifier fits) other
  have noDots : (tryAccept ["..."]).read (readWithin (m + 1)) (closing :: e) = .ok false (closing :: e) :=
    read_tryAccept_unfit (unfit_word (closes ▸ by decide))
  have typed : (parse .type).read (readWithin (m + 1)) ahead = .ok type.tree (closing :: e) :=
    (read_parse _ _).trans (type.read enough written (ends_closing closes))
  have unnamed : ((parse .identifier).read (readWithin (m + 1)) (closing :: e)).Rejected := by
    rw [read_parse]
    change ((accept [.cls .identifier]).read (readWithin m) (closing :: e)).Rejected
    rw [read_accept_cons, noName, if_neg Bool.false_ne_true]
    exact ⟨⟨_, _, rfl⟩, rfl⟩
  simp only [formalParameter, read_monad_bind, read_variableModifiers written, read_peek, andThen_pure, typed, noDots]
  exact unnamed.andThen _

include opens closes worded written in
/-- A type in parentheses is no list of parameters. -/
theorem lambda_rejected (enough : 2 * type.flatten.length + 2 ≤ n) :
    (Rule.lambdaExpression.readWithin (n + 2) (opening :: ahead)).Rejected := by
  have fits : Pattern.fits (some opening) (.word (ofString "(")) = true := isWord_some.2 opens
  have noClosing : (tryAccept [")"]).read (readWithin n) ahead = .ok false ahead :=
    read_tryAccept_unfit (type_head_unfit written (not_isName (by decide)) (by decide))
  have parameters : (Rule.formalParameters.readWithin (n + 1) (opening :: ahead)).Rejected := by
    change (formalParameters.read (readWithin n) (opening :: ahead)).Rejected
    simp only [formalParameters, read_monad_bind, read_discard, read_accept_cons, fits, if_true,
      andThen_pure, noClosing, Bool.false_eq_true, if_false]
    refine Outcome.Rejected.andThen ?_ _
    rw [many, Routine.read, repeated]
    refine Outcome.Rejected.andThen (Outcome.Rejected.andThen ?_ _) _
    simp only [read_monad_bind]
    exact ((formalParameter_rejected closes worded written enough).andThen _).andThen _
  change (lambdaExpression.read (readWithin (n + 1)) (opening :: ahead)).Rejected
  simp only [lambdaExpression, read_monad_bind, read_wouldAccept (cons_ne_nil _ _),
    not_inferred closes written, andThen_pure, Bool.false_eq_true, if_false]
  rw [read_parse]
  exact parameters.andThen _

/-! ## Casts -/

variable {x : Tree}

include opens closes written in
/-- A cast is read from a type in parentheses and from an operand behind it. -/
theorem castExpression_gives (enough : 2 * type.flatten.length + 2 ≤ n)
    (operand : (Rule.expressionThree.readWithin n e).Gives x rest) :
    (castExpression.read (readWithin n) (opening :: ahead)).Gives
      (.make .cast [(.type, type.tree), (.expression, x)]) rest := by
  have opened : Pattern.fits (some opening) (.word (ofString "(")) = true := isWord_some.2 opens
  have closed : Pattern.fits (some closing) (.word (ofString ")")) = true := isWord_some.2 closes
  have typed : (parse .type).read (readWithin n) ahead = .ok type.tree (closing :: e) :=
    (read_parse _ _).trans (type.read enough written (ends_closing closes))
  simp only [castExpression, read_monad_bind, read_discard, read_accept_cons, opened, closed, if_true,
    andThen_pure, typed]
  rw [read_parse]
  exact gives_of_andThen operand ⟨rfl, rfl⟩

include opens closes worded written in
/-- In front of a type in parentheses a cast is read, as far as an operand follows. -/
theorem expressionThree_cast (enough : 2 * type.flatten.length + 2 ≤ n) {x : Tree} {rest : List Token}
    (operand : (Rule.expressionThree.readWithin (n + 2) e).Gives x rest) :
    (Rule.expressionThree.readWithin (n + 3) (opening :: ahead)).Gives
      (.make .cast [(.type, type.tree), (.expression, x)]) rest := by
  have first : isAmong (opening :: ahead)[0]? prefixOperators = false :=
    not_isAmong (opens ▸ by decide)
  have fits : Pattern.fits (some opening) (.word (ofString "(")) = true := isWord_some.2 opens
  change (expressionThree.read (readWithin (n + 2)) (opening :: ahead)).Gives _ rest
  rw [read_expressionThree_alone first, behindOperators, read_bind_ok (read_wouldAccept_one ..), getElem?_cons_zero, fits, if_pos rfl, read_attempt_rejected]
  · exact attempt_gives (castExpression_gives opens closes written (by omega) operand) _
  · rw [read_parse]
    exact lambda_rejected opens closes worded written enough

include opens closes worded written in
/-- **A cast.** A type in parentheses and the operand behind it are read as a cast. -/
theorem reads_cast (operand : (Rule.expressionThree.reads e).Gives x rest) :
    (Rule.expressionThree.reads (opening :: ahead)).Gives
      (.make .cast [(.type, type.tree), (.expression, x)]) rest := by
  have length := written.spells.length_eq
  rw [length_cons] at length
  obtain ⟨n, depth, deeper, enough⟩ := exists_nesting (k := 3) (ahead.length + 1) (by decide)
  have deep := gives_deeper ((deeper e.length (by omega)).trans (Nat.le_add_right n 2)) operand
  rw [Rule.reads, length_cons, depth]
  exact expressionThree_cast opens closes worded written (by omega) deep

end

/-- The operators before an operand, and what follows them. -/
theorem exists_operators (ahead : List Token) :
    ∃ operators e, ahead = operators ++ e ∧ (∀ t ∈ operators, t.value ∈ prefixOperators) ∧
      isAmong e[0]? prefixOperators = false := by
  induction ahead with
  | nil => exact ⟨[], [], rfl, by simp, rfl⟩
  | cons t ahead ih =>
    cases among : isAmong (some t) prefixOperators with
    | false => exact ⟨[], t :: ahead, rfl, by simp, among⟩
    | true =>
      obtain ⟨operators, e, rfl, known, first⟩ := ih
      exact ⟨t :: operators, e, rfl, forall_mem_cons.2 ⟨isAmong_some.1 among, known⟩, first⟩

/-- Where `t` is given as a cast over `x`: a type in parentheses, and the operand behind it. -/
structure CastAt (ahead rest : List Token) (t : Tree) (type : JavaType) (e : List Token) (x : Tree) : Prop where
  tokens : ∃ opening closing tokens, opening :: (tokens ++ closing :: e) <:+ ahead ∧
    opening.value = Text.ofString "(" ∧ tokens.map Token.value = type.flatten ∧ closing.value = Text.ofString ")"
  operand : ∃ n, (Rule.expressionThree.readWithin n e).Gives x rest
  tree : t = .make .cast [(.type, type.tree), (.expression, x)]

variable {t : Tree}

theorem cast_of_behindOperators {n : Nat} (worded : ∀ u ∈ ahead, u.Worded)
    (gives : ((behindOperators []).read (readWithin n) ahead).Gives t rest) (cast : t.isA .cast = true)
    (bare : t.get? .prefixOperators = none) : ∃ type e x, CastAt ahead rest t type e x := by
  rcases gives_behindOperators gives with ⟨-, lambda⟩ | ⟨-, later, suffix, tried⟩ | ⟨later, gives⟩
  · obtain ⟨parameters, body, rfl⟩ := gives_lambdaExpression lambda
    exact absurd cast Bool.false_ne_true
  · obtain ⟨opening, inner, type, closing, e, x, rfl, opens, typed, closes, operand, rfl⟩ :=
      gives_castExpression tried
    have inside : ∀ u ∈ inner, u.Worded := fun u mem => worded u (suffix.subset (mem_cons_of_mem _ mem))
    obtain ⟨type, rfl, tokens, rfl, values⟩ := gives_type inside typed
    exact ⟨type, e, x, ⟨opening, closing, tokens, suffix, opens, values, closes⟩, ⟨n, operand⟩, rfl⟩
  · have has := operand_has gives
    rw [bare] at has
    cases has

/-- **Only there.** A cast that is given as it was read stands for a type in parentheses and an operand behind it. -/
theorem cast_of_reads (worded : ∀ u ∈ ahead, u.Worded)
    (gives : (Rule.expressionThree.reads ahead).Gives t rest) (cast : t.isA .cast = true)
    (bare : t.get? .prefixOperators = none) : ∃ type e x, CastAt ahead rest t type e x := by
  -- the operators before the operand change nothing, since the cast has no place for them
  obtain ⟨operators, e, rfl, known, first⟩ := exists_operators ahead
  have read := readWithin_prefixed known first (Rule.all.length * ((operators ++ e).length + 1))
  change Rule.expressionThree.reads (operators ++ e) = _ at read
  rw [read] at gives
  obtain ⟨t, later, alone, done⟩ := gives_andThen gives
  cases done.result
  cases done.ahead
  have lost : t.get? .prefixOperators = none := by
    cases has : t.get? .prefixOperators with
    | none => rfl
    | some v =>
      have kept := (Tree.get?_behind_iff (operators.map Token.value) t).2 (by rw [has]; rfl)
      rw [bare] at kept
      cases kept
  rw [Tree.behind_of_none lost] at cast ⊢
  change (expressionThree.read (readWithin _) ([] ++ e)).Gives t later at alone
  rw [read_expressionThree_behind (by simp) first] at alone
  have inside : ∀ u ∈ e, u.Worded := fun u mem => worded u (mem_append_right _ mem)
  obtain ⟨type, e', x, tokens, operand, tree⟩ := cast_of_behindOperators inside alone cast lost
  obtain ⟨opening, closing, tokens, suffix, words⟩ := tokens
  exact ⟨type, e', x, ⟨opening, closing, tokens, suffix.trans (suffix_append _ _), words⟩, operand, tree⟩

/-! ## Operands as expressions -/

/-- Nothing of an expression goes on behind an operand. -/
structure Concludes (rest : List Token) : Prop where
  operator : isAmong rest[0]? Vocabulary.infixOperators = false
  typeTest : isWord rest[0]? "instanceof" = false
  choice : isWord rest[0]? "?" = false
  arrow : isWord rest[0]? "->" = false
  colons : isWord rest[0]? "::" = false
  assignment : isAmong rest[0]? Vocabulary.assignmentOperators = false

section

variable {n : Nat} {ahead rest : List Token} {x : Tree} (concludes : Concludes rest)

include concludes in
theorem expressionTwo_of_operand (operand : (Rule.expressionThree.readWithin n ahead).Gives x rest) :
    (Rule.expressionTwo.readWithin (n + 1) ahead).Gives x rest := by
  change (expressionTwo.read (readWithin n) ahead).Gives x rest
  rw [expressionTwo, read_monad_bind, read_parse]
  refine gives_of_andThen operand ?_
  rw [read_monad_bind, binaryOperatorNext, read_bind_ok (read_peek ..),
    concludes.operator, concludes.typeTest]
  exact ⟨rfl, rfl⟩

include concludes in
theorem expression_of_operation (operation : (Rule.expressionTwo.readWithin n ahead).Gives x rest) :
    (Rule.expression.readWithin (n + 2) ahead).Gives x rest := by
  have unfit {word : String} (no : isWord rest[0]? word = false) :
      Pattern.fits rest[0]? (.word (ofString word)) = false := no
  have one : (Rule.expressionOne.readWithin (n + 1) ahead).Gives x rest := by
    change (expressionOne.read (readWithin n) ahead).Gives x rest
    rw [expressionOne, read_monad_bind, read_parse]
    refine gives_of_andThen operation ?_
    simp only [read_monad_bind, read_tryAccept_unfit (unfit concludes.choice), read_wouldAccept_one,
      unfit concludes.arrow, read_tryAccept_unfit (unfit concludes.colons), andThen_pure,
      Bool.false_eq_true, if_false, read_monad_pure]
    exact ⟨rfl, rfl⟩
  change (expression.read (readWithin (n + 1)) ahead).Gives x rest
  rw [expression, read_monad_bind, read_parse]
  refine gives_of_andThen one ?_
  rw [read_bind_ok (read_peek ..), concludes.assignment]
  exact ⟨rfl, rfl⟩

end

/-! ## Sums -/

/-- A loop with a single turn. -/
theorem whileTrue_once {follow : Reader} {β : Type} {test : Routine Bool}
    {item : Routine β} {x : β}
    (goes : test.read follow ahead = .ok true ahead) (gives : (item.read follow ahead).Gives x rest)
    (stops : test.read follow rest = .ok false rest) :
    ((whileTrue test item).read follow ahead).Gives [x] rest := by
  rw [whileTrue, Routine.read]
  refine gives_of_andThen (a := [x]) ?_ ⟨rfl, rfl⟩
  have turn : ((item >>= fun x => pure ([x], true)).read follow ahead).Gives ([x], true) rest :=
    gives_of_bind gives ⟨rfl, rfl⟩
  rw [repeated, read_bind_ok goes, if_pos rfl]
  refine gives_of_andThen turn ?_
  dsimp only
  rw [if_pos rfl, repeated, read_bind_ok stops, if_neg Bool.false_ne_true]
  exact ⟨rfl, rfl⟩

/-- The signs that stand before an operand as well as between two. -/
def signs : List Text := Vocabulary.texts ["+", "-"]

section

variable {sign : Token} (spelled : sign.value ∈ signs) (cls : sign.cls = .operator) {n : Nat}
  {ahead b rest : List Token} {x y : Tree}

include spelled cls in
theorem read_sign : Rule.infixOperator.readWithin (n + 1) (sign :: b) = .ok sign.value b := by
  have fits : Pattern.fits (some sign) (.cls .operator) = true := isOf_of_cls cls rfl
  have infixes : ∀ word ∈ signs, infixOperators.contains word = true := by decide
  have others : ∀ word ∈ signs, (word == ofString ">") = false := by decide
  change infixOperator.read (readWithin n) (sign :: b) = _
  simp only [infixOperator, read_monad_bind, read_accept_cons, fits, if_true, andThen_pure,
    infixes _ spelled, others _ spelled, Bool.not_true, Bool.false_eq_true, if_false, read_monad_pure]

include spelled cls in
/-- One operator, and the operand behind it. -/
theorem furtherOperand_gives (operand : (Rule.expressionThree.readWithin (n + 1) b).Gives y rest) :
    (furtherOperand.read (readWithin (n + 1)) (sign :: b)).Gives [.text sign.value, y] rest := by
  have others : ofString "instanceof" ∉ signs := by decide
  have noTest : Pattern.fits (sign :: b)[0]? (.word (ofString "instanceof")) = false :=
    unfit_word fun same => others (same ▸ spelled)
  rw [furtherOperand, read_bind_ok (read_tryAccept_unfit noTest),
    if_neg Bool.false_ne_true, read_monad_bind, read_parse, read_sign spelled cls, andThen_pure,
    read_monad_bind, read_parse]
  exact gives_of_andThen operand ⟨rfl, rfl⟩

theorem buildOperation_sign (l r : Tree) (spelled : word ∈ signs) :
    buildOperation 0 [l, .text word, r] = .ok (operation l (.text word) r) := by
  rcases mem_cons.1 spelled with rfl | other
  · rfl
  · cases mem_singleton.1 other
    rfl

include spelled cls in
/-- **A sum**, or a difference, of two operands. -/
theorem expressionTwo_sum (concludes : Concludes rest)
    (left : (Rule.expressionThree.readWithin (n + 2) ahead).Gives x (sign :: b))
    (right : (Rule.expressionThree.readWithin (n + 1) b).Gives y rest) :
    (Rule.expressionTwo.readWithin (n + 3) ahead).Gives (operation x (.text sign.value) y) rest := by
  have infixes : ∀ word ∈ signs, word ∈ infixOperators := by decide
  have goes (m : Nat) : binaryOperatorNext.read (readWithin m) (sign :: b) = .ok true (sign :: b) := by
    rw [binaryOperatorNext, read_monad_bind, read_peek, andThen_pure, getElem?_cons_zero,
      isAmong_some.2 (infixes _ spelled)]
    rfl
  have stops : binaryOperatorNext.read (readWithin (n + 1)) rest = .ok false rest := by
    rw [binaryOperatorNext, read_monad_bind, read_peek, andThen_pure, concludes.operator,
      concludes.typeTest]
    rfl
  have parts : (Rule.expressionTwoRest.readWithin (n + 2) (sign :: b)).Gives [.text sign.value, y] rest := by
    change (expressionTwoRest.read (readWithin (n + 1)) (sign :: b)).Gives _ rest
    rw [expressionTwoRest, read_monad_bind]
    exact gives_of_andThen (whileTrue_once (goes _) (furtherOperand_gives spelled cls right) stops) ⟨rfl, rfl⟩
  change (expressionTwo.read (readWithin (n + 2)) ahead).Gives _ rest
  rw [expressionTwo, read_monad_bind, read_parse]
  refine gives_of_andThen left ?_
  rw [read_monad_bind, goes, andThen_pure, if_pos rfl, read_monad_bind, read_parse]
  refine gives_of_andThen parts ?_
  rw [buildOperation_sign x y spelled]
  exact ⟨rfl, rfl⟩

end

/-- A sign before an operand joins the operators before it. -/
theorem reads_signed {sign : Token} (known : sign.value ∈ prefixOperators) {b : List Token} {y : Tree}
    (gives : (Rule.expressionThree.reads b).Gives y rest) :
    ∃ operators, (∀ v, y.get? .prefixOperators = some v → v = .ofTexts operators) ∧
      (Rule.expressionThree.readWithin (nestingOf b.length) (sign :: b)).Gives (y.behind (sign.value :: operators))
        rest := by
  obtain ⟨operators, e, rfl, others, first⟩ := exists_operators b
  have read := readWithin_prefixed others first (Rule.all.length * ((operators ++ e).length + 1))
  change Rule.expressionThree.reads (operators ++ e) = _ at read
  rw [read] at gives
  obtain ⟨t, later, alone, done⟩ := gives_andThen gives
  cases done.result
  cases done.ahead
  refine ⟨operators.map Token.value, fun v has => ?_, ?_⟩
  · have place : (t.get? .prefixOperators).isSome = true := by
      cases none : t.get? .prefixOperators with
      | none =>
        rw [Tree.behind_of_none none, none] at has
        cases has
      | some w => rfl
    exact Option.some.inj (has.symm.trans ((Tree.get?_behind_iff _ t).2 place))
  · have all : ∀ t ∈ sign :: operators, t.value ∈ prefixOperators := forall_mem_cons.2 ⟨known, others⟩
    have signed := readWithin_prefixed all first (Rule.all.length * ((operators ++ e).length + 1))
    change Rule.expressionThree.readWithin (nestingOf (operators ++ e).length) (sign :: (operators ++ e)) = _ at signed
    rw [signed, Tree.behind_behind]
    exact gives_of_andThen alone ⟨rfl, rfl⟩

/-- The type that is a name alone. -/
def Name.type (name : Name) : JavaType := .reference (.last name .none) 0

section

variable {a sign : Token} {b rest : List Token} {y : Tree} (isName : IsName a.value) (worded : a.Worded)
  (spelled : sign.value ∈ signs)

include worded spelled in
/-- **A name and a signed operand** make a sum, or a difference. -/
theorem reads_sum (cls : sign.cls = .operator) (concludes : Concludes rest)
    (operand : (Rule.expressionThree.reads b).Gives y rest) : (Rule.expression.reads (a :: sign :: b)).Gives
      (operation ((Operand.name a.value isName).tree.placeAt a.position) (.text sign.value) y) rest := by
  obtain ⟨n, depth, deeper, -⟩ := exists_nesting (k := 6) (b.length + 2) (by decide)
  have deep := gives_deeper ((deeper b.length (by omega)).trans (Nat.le_add_right n 2)) operand
  have ends : ∀ word ∈ signs, word ∈ enders := by decide
  have named : a.spelling = (Operand.name a.value isName).spelling := by
    rw [Token.spelling, worded.identifier.2 isName]
    rfl
  have left : (Rule.expressionThree.readWithin (n + 3) (a :: sign :: b)).Gives
      ((Operand.name a.value isName).tree.placeAt a.position) (sign :: b) := by
    rw [read_expressionThree n _ named (ends _ spelled)]
    exact ⟨rfl, rfl⟩
  rw [Rule.reads, length_cons, length_cons, depth]
  exact expression_of_operation concludes (expressionTwo_sum spelled cls concludes left deep)

include isName worded spelled in
/-- **A name in parentheses and a signed operand** make a cast. -/
theorem reads_signed_cast {opening closing : Token} (opens : opening.value = ofString "(")
    (closes : closing.value = ofString ")") (closingWorded : closing.Worded) (concludes : Concludes rest)
    (operand : (Rule.expressionThree.reads b).Gives y rest) :
    ∃ operators, (∀ v, y.get? .prefixOperators = some v → v = .ofTexts operators) ∧
      (Rule.expression.reads (opening :: a :: closing :: sign :: b)).Gives
        (.make .cast [(.type, (Name.type ⟨a.value, isName⟩).tree),
          (.expression, y.behind (sign.value :: operators))]) rest := by
  have prefixes : ∀ word ∈ signs, word ∈ prefixOperators := by decide
  obtain ⟨operators, before, signed⟩ := reads_signed (prefixes _ spelled) operand
  have written : Written (Name.type ⟨a.value, isName⟩).flatten (a :: closing :: sign :: b) (closing :: sign :: b) :=
    ⟨[a], rfl, rfl, forall_mem_singleton.2 worded⟩
  obtain ⟨n, depth, deeper, enough⟩ := exists_nesting (k := 6) (b.length + 4) (by decide)
  have deep := gives_deeper ((deeper b.length (by omega)).trans (Nat.le_add_right n 2)) signed
  have short : (Name.type ⟨a.value, isName⟩).flatten.length = 1 := rfl
  refine ⟨operators, before, ?_⟩
  rw [Rule.reads, show (opening :: a :: closing :: sign :: b).length = b.length + 4 from rfl, depth]
  exact expression_of_operation concludes (expressionTwo_of_operand concludes
    (expressionThree_cast opens closes closingWorded written (by omega) deep))

end

end JavaSource.Grammar

namespace JavaSource.Parser

open Grammar Lexer

variable {p : Parser}

theorem Facing.unique {ahead ahead' : List Token} (facing : p.Facing ahead) (facing' : p.Facing ahead') :
    ahead = ahead' :=
  facing.drop.symm.trans facing'.drop

variable {r : Rule}

/-- What a parser in front of tokens gives is what they are read as. -/
theorem Facing.gives {ahead rest : List Token} (facing : p.Facing ahead) {x : r.Result}
    (read : (p.run (follow plainly r)).1 = .ok x) (left : (p.run (follow plainly r)).2.Facing rest) :
    (r.reads ahead).Gives x rest := by
  have does := follow_does r facing
  exact ⟨does.result.symm.trans read, does.moved.facing.unique left⟩

theorem Facing.run_of_gives {ahead rest : List Token} (facing : p.Facing ahead) {x : r.Result}
    (gives : (r.reads ahead).Gives x rest) :
    (p.run (follow plainly r)).1 = .ok x ∧ (p.run (follow plainly r)).2.Facing rest := by
  have does := follow_does r facing
  exact ⟨does.result.trans gives.result, gives.ahead ▸ does.moved.facing⟩

/-- **Casts are read wherever they can be.** Behind a type in parentheses, any operand is the operand of a cast to
this type, whatever its first token is; and an operand that is a cast, as it was read, comes from such tokens. So a
name in parentheses before a signed operand is a cast of this operand, where the name without parentheses is the left
side of a sum or a difference. -/
theorem follow_cast_exact {p : Parser} {e rest : List Token} {x : Tree} (facing : p.Facing e)
    (read : (p.run (follow plainly .expressionThree)).1 = .ok x)
    (left : (p.run (follow plainly .expressionThree)).2.Facing rest) :
    (∀ (type : JavaType) (opening closing : Token) (tokens : List Token) (q : Parser),
      opening.value = Text.ofString "(" → closing.value = Text.ofString ")" → closing.Worded →
      (∀ t ∈ tokens, t.Worded) → tokens.map Token.value = type.flatten →
      q.Facing (opening :: (tokens ++ closing :: e)) →
      (q.run (follow plainly .expressionThree)).1 = .ok (.make .cast [(.type, type.tree), (.expression, x)]) ∧
        (q.run (follow plainly .expressionThree)).2.Facing rest) ∧
    ((∀ u ∈ e, u.Worded) → x.isA .cast = true → x.get? .prefixOperators = none →
      ∃ type later operand, CastAt e rest x type later operand) ∧
    (∀ (a sign opening closing : Token) (q r : Parser) (isName : IsName a.value),
      a.Worded → sign.value ∈ signs → sign.cls = .operator → opening.value = Text.ofString "(" →
      closing.value = Text.ofString ")" → closing.Worded → Concludes rest → q.Facing (a :: sign :: e) →
      r.Facing (opening :: a :: closing :: sign :: e) →
      (q.run (follow plainly .expression)).1 =
          .ok (operation ((Operand.name a.value isName).tree.placeAt a.position) (.text sign.value) x) ∧
        ∃ operators, (∀ v, x.get? .prefixOperators = some v → v = .ofTexts operators) ∧
          (r.run (follow plainly .expression)).1 = .ok (.make .cast [(.type, (Name.type ⟨a.value, isName⟩).tree),
              (.expression, x.behind (sign.value :: operators))])) := by
  have operand := facing.gives read left
  refine ⟨?_, ?_, ?_⟩
  · intro type opening closing tokens q opens closes closingWorded worded values facing'
    have written : Written type.flatten (tokens ++ closing :: e) (closing :: e) := ⟨tokens, rfl, values, worded⟩
    exact facing'.run_of_gives (reads_cast opens closes closingWorded written operand)
  · intro worded
    exact cast_of_reads worded operand
  · intro a sign opening closing q r isName worded spelled cls opens closes closingWorded concludes sum cast
    obtain ⟨operators, before, gives⟩ :=
      reads_signed_cast isName worded spelled opens closes closingWorded concludes operand
    exact ⟨(sum.run_of_gives (reads_sum isName worded spelled cls concludes operand)).1, operators, before,
      (cast.run_of_gives gives).1⟩

/-- A name before a difference, without parentheses and in parentheses. -/
theorem follow_cast_exact_difference : ∃ (isName : IsName "a") (y : Tree) (operators : List Text),
      ((ofTokens (.spelled .identifier "a" :: .spelled .operator "-" :: tokensOf "b.c;")).run
          (follow plainly .expression)).1 =
        .ok (operation ((Operand.name "a" isName).tree.placeAt none) (.text "-") y) ∧
      ((ofTokens (.spelled .separator "(" :: .spelled .identifier "a" :: .spelled .separator ")" ::
          .spelled .operator "-" :: tokensOf "b.c;")).run (follow plainly .expression)).1 =
        .ok (.make .cast [(.type, (Name.type ⟨"a", isName⟩).tree), (.expression, y.behind ("-" :: operators))]) := by
  obtain ⟨isName, succeeds, ended⟩ : IsName "a" ∧
      (Rule.expressionThree.reads (tokensOf "b.c;")).result.toBool = true ∧
      valueOf (Rule.expressionThree.reads (tokensOf "b.c;")).ahead[0]? = some (ofString ";") := by decide +kernel
  obtain ⟨y, read⟩ := exists_ok succeeds
  have does := follow_does .expressionThree (facing_ofTokens (tokensOf "b.c;"))
  have concludes : Concludes (Rule.expressionThree.reads (tokensOf "b.c;")).ahead := by
    constructor <;> simp only [isAmong, isWord, ended] <;> decide
  obtain ⟨-, -, signed⟩ := follow_cast_exact (facing_ofTokens _) (does.result.trans read) does.moved.facing
  obtain ⟨sum, operators, -, cast⟩ := signed (.spelled .identifier "a") (.spelled .operator "-")
    (.spelled .separator "(") (.spelled .separator ")") _ _ isName
    ⟨iff_of_true rfl isName, by decide⟩ (by decide) rfl rfl rfl
    ⟨iff_of_false (by decide) (not_isName (by decide)), by decide⟩ concludes (facing_ofTokens _) (facing_ofTokens _)
  exact ⟨isName, y, operators, sum, cast⟩

/-- A cast to a type that is not primitive may stand over an operand with a sign. -/
theorem cast_over_sign :
    ¬ ∀ (tokens : List Token) (t : Tree), ((ofTokens tokens).run (follow plainly .expression)).1 = .ok t →
      t.isA .cast = true → (t.get .type).isA .referenceType = true →
      ((t.get .expression).get .prefixOperators).items = [] := by
  intro never
  have read : ((ofTokens (tokensOf "(a) + b;")).run (follow plainly .expression)).1.toOption.any (fun t =>
      t.isA .cast && (t.get .type).isA .referenceType &&
        !((t.get .expression).get .prefixOperators).items.isEmpty) = true := by decide +kernel
  obtain ⟨t, result, read⟩ := exists_ok_of_any read
  rw [Bool.and_eq_true, Bool.and_eq_true] at read
  obtain ⟨⟨cast, reference⟩, signed⟩ := read
  rw [never _ t result cast reference] at signed
  cases signed

end JavaSource.Parser

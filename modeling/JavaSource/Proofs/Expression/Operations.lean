import JavaSource.Proofs.Expression.Operand
import JavaSource.Proofs.Parser.Tokens

/-!
# Reading operations

What the rules for expressions do to the tokens of operands with binary operators between them, up to a
semicolon. An operand is read as its tree, the signs of a shift to the right are put together again, and the
chain of all is built to its normal grouping: `read_expression`.
-/

namespace JavaSource.Grammar

open List Routine Outcome Text Vocabulary
open Rule (readWithin)
open Pattern (unfit_first unfit_word)

open Lexer

def Operand.spelling : Operand → TokenClass × Text
  | name word _ => (.identifier, word)
  | integer digits mark _ _ => (.decimalInteger, digits ++ mark)

theorem Operand.spelling_text (x : Operand) : x.spelling.2 = x.text := by
  cases x <;> rfl

/-- What may stand behind an operand: a semicolon, or the first sign of an operator. -/
def enders : List Text := [Text.ofString ";"] ++ Vocabulary.infixOperators.flatMap signsOf

/-! ## Tests that fail -/

variable {u : Token} {word : Text}

theorem ne_of_ender (ends : u.value ∈ enders) (apart : word ∉ enders) : u.value ≠ word :=
  fun same => apart (same ▸ ends)

theorem not_isAmong_of_ender (ends : u.value ∈ enders) {texts : List Text}
    (apart : ∀ word ∈ texts, word ∉ enders) : isAmong (some u) texts = false :=
  not_isAmong fun mem => apart u.value mem ends

/-- Whether a text starts as an operand does. -/
def startsOperand (word : Text) : Bool :=
  word.head?.any fun c => Text.isIdentifierStart c || Number.isDecimal c

theorem Operand.startsOperand_text (x : Operand) : startsOperand x.text = true := by
  cases x with
  | name word isName =>
    cases word with
    | nil => cases isName.start
    | cons c word => exact Bool.or_eq_true_iff.2 (.inl isName.start)
  | integer digits mark isDecimal isMark =>
    cases digits with
    | nil => cases isDecimal.first
    | cons c digits => exact Bool.or_eq_true_iff.2 (.inr isDecimal.first)

variable {x : Operand} {t : Token}

/-- The token of an operand is none of the texts that start in another way. -/
theorem Operand.value_ne (spelled : t.spelling = x.spelling)
    (other : startsOperand word = false) : t.value ≠ word := by
  rintro rfl
  have value : t.value = x.text := x.spelling_text ▸ congrArg Prod.snd spelled
  rw [value, x.startsOperand_text] at other
  cases other

/-! ## Operands -/

section

variable {t u : Token} {rest : List Token} (n : Nat)

theorem read_identifier (cls : t.cls = .identifier) (ahead : List Token) :
    Rule.identifier.readWithin (n + 1) (t :: ahead) = .ok t.value ahead := by
  have fits : Pattern.fits (some t) (.cls .identifier) = true := isOf_of_cls cls rfl
  simp only [readWithin, Rule.body, Body.identifier, read_accept_cons, fits, if_true]

theorem read_literal (cls : t.cls = .decimalInteger) (ahead : List Token) :
    Rule.literal.readWithin (n + 1) (t :: ahead) = .ok (.make .literal [(.value, .text t.value)]) ahead := by
  have fits : Pattern.fits (some t) (.cls .literal) = true := isOf_of_cls cls rfl
  simp only [readWithin, Rule.body, Body.literal, read_monad_bind, read_accept_cons, fits,
    if_true, andThen_pure, read_monad_pure]

/-- No suffix goes on with a name in front of an operator or a semicolon. -/
theorem read_identifierSuffix (ends : u.value ∈ enders) : Rule.identifierSuffix.readWithin (n + 1) (u :: rest) =
      .ok (.make .memberReference []) (u :: rest) := by
  have bracket : u.value ≠ "[" := ne_of_ender ends (by decide)
  have parenthesis : u.value ≠ "(" := ne_of_ender ends (by decide)
  have dot : u.value ≠ "." := ne_of_ender ends (by decide)
  simp only [readWithin, Rule.body, Body.identifierSuffix, read_monad_bind,
    read_tryAccept_apart (cons_ne_nil _ _) (unfit_first bracket _ _),
    read_tryAccept_apart (cons_ne_nil _ _) (unfit_first dot _ _),
    read_wouldAccept (cons_ne_nil _ _) (u :: rest), unfit_first parenthesis,
    unfit_first dot, andThen_pure, Bool.false_eq_true, if_false, read_monad_pure]

theorem read_named (cls : t.cls = .identifier) (ends : u.value ∈ enders) :
    (Body.named (some t)).read (readWithin (n + 1)) (t :: u :: rest) =
      { result := .ok (Body.qualify [t.value] (some t) (.make .memberReference [])),
        ahead := u :: rest } := by
  have dot : u.value ≠ "." := ne_of_ender ends (by decide)
  have stops : (wouldAccept [".", .cls .identifier]).read (readWithin (n + 1)) (u :: rest) =
      .ok false (u :: rest) := by
    rw [read_wouldAccept (cons_ne_nil _ _), unfit_first dot]
  rw [Body.named, read_monad_bind, read_parse, read_identifier n cls, andThen_pure,
    read_bind_ok (read_whileTrue_done stops ..), read_monad_bind,
    read_parse, read_identifierSuffix n ends, andThen_pure, read_monad_pure]

def Operand.primary (x : Operand) (t : Token) : Tree :=
  match x with
  | name word _ => Body.qualify [word] (some t) (.make .memberReference [])
  | integer digits mark _ _ =>
    (Tree.make .literal [(.value, .text (digits ++ mark))]).placeAt t.position

theorem read_primary (x : Operand) (spelled : t.spelling = x.spelling) (ends : u.value ∈ enders) :
    Rule.primary.readWithin (n + 2) (t :: u :: rest) = .ok (x.primary t) (u :: rest) := by
  obtain ⟨cls, value⟩ := Prod.mk.inj spelled
  cases x with
  | name word isName =>
    have notLiteral : isOf (some t) .literal = false := isOf_of_cls cls rfl
    have isIdentifier : isOf (some t) .identifier = true := isOf_of_cls cls rfl
    have ne {w : String} (noName : ¬ IsName (ofString w)) : t.value ≠ ofString w := by
      intro same
      exact noName (same ▸ value ▸ isName)
    have unfit {w : String} (noName : ¬ IsName (ofString w)) :
        Pattern.fits (t :: u :: rest)[0]? (.word (ofString w)) = false :=
      unfit_word (ne noName)
    have parenthesis : isWord (some t) "(" = false := unfit (by decide)
    have bracket : isWord (some t) "<" = false := unfit (by decide)
    have super : t.value ≠ "super" := ne (by decide)
    rw [readWithin]
    simp only [Rule.body, Body.primary, read_monad_bind, read_peek, andThen_pure,
      getElem?_cons_zero, notLiteral, parenthesis, Bool.false_eq_true, if_false,
      read_tryAccept_unfit (unfit (w := "this") (by decide)),
      read_wouldAccept (cons_ne_nil _ _) (t :: u :: rest), unfit_first super,
      read_tryAccept_unfit (unfit (w := "super") (by decide)),
      read_tryAccept_unfit (unfit (w := "new") (by decide)), bracket, isIdentifier, if_true]
    rw [read_named n cls ends, value]
    rfl
  | integer digits mark isDecimal isMark =>
    have isLiteral : isOf (some t) .literal = true := isOf_of_cls cls rfl
    rw [readWithin]
    simp only [Rule.body, Body.primary, read_monad_bind, read_peek, andThen_pure,
      getElem?_cons_zero, isLiteral, if_true]
    rw [read_parse, read_literal n cls, andThen_pure, read_monad_pure, value]
    rfl

theorem primary_put (x : Operand) (t : Token) :
    ((x.primary t).put .prefixOperators (.ofTexts []) |>.put .selectors (.list [])
      |>.put .postfixOperators (.ofTexts [])) = x.tree.placeAt t.position := by
  cases x <;> rfl

theorem read_operand (x : Operand) (spelled : t.spelling = x.spelling) (ends : u.value ∈ enders) :
    (Body.operand []).read (readWithin (n + 2)) (t :: u :: rest) =
      .ok (x.tree.placeAt t.position) (u :: rest) := by
  have noSelector : isAmong (some u) (texts ["[", "."]) = false :=
    not_isAmong_of_ender ends (by decide)
  have noPostfix : isAmong (some u) postfixOperators = false :=
    not_isAmong_of_ender ends (by decide)
  rw [Body.operand, read_monad_bind, read_parse, read_primary n x spelled ends, andThen_pure,
    read_bind_ok (read_loop_done ..), read_bind_ok (read_loop_done ..), read_monad_pure, primary_put]
  · simp only [read_monad_bind, read_peek, andThen_pure, getElem?_cons_zero, noPostfix,
      Bool.false_eq_true, if_false, read_monad_pure]
  · simp only [read_monad_bind, read_peek, andThen_pure, getElem?_cons_zero,
      Body.selectorStart, Routine.read, noSelector, Bool.false_eq_true, if_false, read_monad_pure]

/-- **An operand** is read as its tree, at the place of its token. -/
theorem read_expressionThree (x : Operand) (spelled : t.spelling = x.spelling) (ends : u.value ∈ enders) :
    Rule.expressionThree.readWithin (n + 3) (t :: u :: rest) = .ok (x.tree.placeAt t.position) (u :: rest) := by
  have others : ∀ word ∈ prefixOperators, startsOperand word = false := by decide
  have noPrefix : isAmong (some t) prefixOperators = false :=
    not_isAmong fun mem => Operand.value_ne spelled (others t.value mem) rfl
  have parenthesis : Pattern.fits (some t) (.word "(") = false :=
    unfit_word (Operand.value_ne spelled (by decide))
  rw [readWithin, Rule.body, Body.expressionThree, read_bind_ok (read_whileTrue_done ..)]
  · simp only [read_monad_bind, read_wouldAccept_one, getElem?_cons_zero, parenthesis,
      andThen_pure, Bool.false_eq_true, if_false]
    exact read_operand n x spelled ends
  · simp only [read_monad_bind, read_peek, andThen_pure, getElem?_cons_zero, noPrefix,
      read_monad_pure]

end

/-! ## Operators -/

variable {operator : Text} {signs : List Token}

section

variable {v : Token} (n : Nat) (rest : List Token)

variable {follow : Reader}

theorem read_accept_operator {sign : Text} (spelled : t.spelling = (.operator, sign))
    (ahead : List Token) :
    (accept [.cls .operator]).read follow (t :: ahead) = .ok sign ahead := by
  obtain ⟨cls, value⟩ := Prod.mk.inj spelled
  have fits : Pattern.fits (some t) (.cls .operator) = true := isOf_of_cls cls rfl
  rw [read_accept_cons, if_pos fits, value]

theorem read_tryAccept_sign (spelled : t.spelling = (.operator, ofString ">"))
    (ahead : List Token) :
    (tryAccept [">"]).read follow (t :: ahead) = .ok true ahead := by
  have fits : Pattern.fits (some t) (.word ">") = true := by
    rw [Pattern.fits, valueOf, Option.map_some, (Prod.mk.inj spelled).2]
    exact beq_self_eq_true _
  rw [read_tryAccept_cons, if_pos fits]

/-- **A binary operator** is read as a whole, also if it was split into signs. -/
theorem read_infixOperator (known : operator ∈ infixOperators)
    (spelled : signs.map Token.spelling = (signsOf operator).map (TokenClass.operator, ·)) (other : v.value ≠ ">") :
    Rule.infixOperator.readWithin (n + 1) (signs ++ v :: rest) = .ok operator (v :: rest) := by
  have stops : (tryAccept [">"]).read (readWithin n) (v :: rest) =
      .ok false (v :: rest) := read_tryAccept_unfit (unfit_word other)
  have isInfix : infixOperators.contains (ofString ">") = true := by decide
  rw [readWithin, Rule.body, Body.infixOperator, read_monad_bind]
  by_cases shift : operator ∈ texts [">>", ">>>"]
  · rw [signsOf, if_pos (contains_iff_mem.2 shift)] at spelled
    -- the signs of a shift are all the same, so only their number matters
    have sign {t : Token} (is : t.spelling = (.operator, [62])) :
        t.spelling = (.operator, ofString ">") := is
    rcases mem_cons.1 shift with rfl | shift
    · obtain ⟨t, signs, rfl, first, spelled⟩ := map_eq_cons_iff.1 spelled
      obtain ⟨t', signs, rfl, second, spelled⟩ := map_eq_cons_iff.1 spelled
      cases map_eq_nil_iff.1 spelled
      simp only [cons_append, nil_append, read_accept_operator (sign first),
        andThen_pure, isInfix, Bool.not_true, Bool.false_eq_true, if_false, beq_self_eq_true,
        if_true, read_monad_bind, read_tryAccept_sign (sign second), stops,
        read_monad_pure]
    · cases mem_singleton.1 shift
      obtain ⟨t, signs, rfl, first, spelled⟩ := map_eq_cons_iff.1 spelled
      obtain ⟨t', signs, rfl, second, spelled⟩ := map_eq_cons_iff.1 spelled
      obtain ⟨t'', signs, rfl, third, spelled⟩ := map_eq_cons_iff.1 spelled
      cases map_eq_nil_iff.1 spelled
      simp only [cons_append, nil_append, read_accept_operator (sign first),
        andThen_pure, isInfix, Bool.not_true, Bool.false_eq_true, if_false, beq_self_eq_true,
        if_true, read_monad_bind, read_tryAccept_sign (sign second),
        read_tryAccept_sign (sign third), read_monad_pure]
  · rw [signsOf, if_neg fun contained => shift (contains_iff_mem.1 contained)] at spelled
    obtain ⟨t, signs, rfl, first, spelled⟩ := map_eq_cons_iff.1 spelled
    cases map_eq_nil_iff.1 spelled
    have contained : infixOperators.contains operator = true := contains_iff_mem.2 known
    rw [cons_append, nil_append, read_accept_operator first, andThen_pure]
    simp only [contained, Bool.not_true, Bool.false_eq_true, if_false]
    split
    · simp only [read_bind_ok stops, Bool.false_eq_true, if_false,
        read_monad_pure]
    · rfl

end

/-! ## Chains -/

/-- The classes and values of the tokens after the first operand. -/
def spellingsAfter (rest : List (Text × Operand)) : List (TokenClass × Text) :=
  rest.flatMap fun (operator, x) => (signsOf operator).map (TokenClass.operator, ·) ++ [x.spelling]

theorem spellingsAfter_cons (operator : Text) (x : Operand) (rest : List (Text × Operand)) :
    spellingsAfter ((operator, x) :: rest) =
      (signsOf operator).map (TokenClass.operator, ·) ++ x.spelling :: spellingsAfter rest := by
  simp [spellingsAfter]

/-- The first sign of an operator. -/
theorem signs_head (known : operator ∈ infixOperators)
    (spelled : signs.map Token.spelling = (signsOf operator).map (TokenClass.operator, ·)) :
    ∃ t more, signs = t :: more ∧ t.value ∈ signsOf operator := by
  have nonempty : ∀ o ∈ infixOperators, signsOf o ≠ [] := by decide
  cases signs with
  | nil => exact absurd (map_eq_nil_iff.1 spelled.symm) (nonempty operator known)
  | cons t more =>
    have mem : t.spelling ∈ (signsOf operator).map (TokenClass.operator, ·) := by
      rw [← spelled]
      exact mem_map_of_mem mem_cons_self
    obtain ⟨sign, among, same⟩ := mem_map.1 mem
    exact ⟨t, more, rfl, (Prod.mk.inj same).2 ▸ among⟩

variable {tokens : List Token} {last : Token}

/-- Behind an operand stands the first sign of the next operator, or the semicolon. -/
theorem tokens_head {rest : List (Text × Operand)}
    (known : ∀ o ∈ rest.map (·.1), o ∈ infixOperators)
    (spelled : tokens.map Token.spelling = spellingsAfter rest) (semicolon : last.value = ";") :
    ∃ u later, tokens ++ [last] = u :: later ∧ u.value ∈ enders := by
  cases rest with
  | nil =>
    cases map_eq_nil_iff.1 spelled
    exact ⟨last, [], rfl, semicolon ▸ mem_cons_self⟩
  | cons head rest =>
    obtain ⟨operator, x⟩ := head
    obtain ⟨here, -⟩ := forall_mem_cons.1 known
    rw [spellingsAfter_cons] at spelled
    obtain ⟨signs, later, rfl, signsSpelled, -⟩ := map_eq_append_iff.1 spelled
    obtain ⟨t, more, rfl, mem⟩ := signs_head here signsSpelled
    exact ⟨t, _, rfl, mem_append_right _ (mem_flatMap.2 ⟨operator, here, mem⟩)⟩

theorem read_binaryOperatorNext {follow : Reader}
    {rest : List (Text × Operand)} (known : ∀ o ∈ rest.map (·.1), o ∈ infixOperators)
    {tokens : List Token} {last : Token} (spelled : tokens.map Token.spelling = spellingsAfter rest)
    (semicolon : last.value = ";") : Body.binaryOperatorNext.read follow (tokens ++ [last]) =
      .ok (!rest.isEmpty) (tokens ++ [last]) := by
  have read : Body.binaryOperatorNext.read follow (tokens ++ [last]) =
      { result := .ok (isAmong (tokens ++ [last])[0]? infixOperators ||
          isWord (tokens ++ [last])[0]? "instanceof"), ahead := tokens ++ [last] } := rfl
  rw [read]
  cases rest with
  | nil =>
    cases map_eq_nil_iff.1 spelled
    rw [nil_append, getElem?_cons_zero, isAmong, isWord, valueOf, Option.map_some, semicolon]
    rfl
  | cons head rest =>
    obtain ⟨operator, x⟩ := head
    obtain ⟨here, -⟩ := forall_mem_cons.1 known
    rw [spellingsAfter_cons] at spelled
    obtain ⟨signs, later, rfl, signsSpelled, -⟩ := map_eq_append_iff.1 spelled
    obtain ⟨t, more, rfl, mem⟩ := signs_head here signsSpelled
    have infixes : ∀ o ∈ infixOperators, ∀ sign ∈ signsOf o, sign ∈ infixOperators := by
      decide
    rw [cons_append, cons_append, getElem?_cons_zero, isAmong_some.2 (infixes operator here t.value mem), Bool.true_or]
    rfl

theorem read_furtherOperand (n : Nat) (known : operator ∈ infixOperators)
    (spelled : signs.map Token.spelling = (signsOf operator).map (TokenClass.operator, ·))
    (operand : t.spelling = x.spelling) (ends : u.value ∈ enders) (rest : List Token) :
    Body.furtherOperand.read (readWithin (n + 3)) (signs ++ t :: u :: rest) =
      .ok [.text operator, x.tree.placeAt t.position] (u :: rest) := by
  have noType : Pattern.fits (signs ++ t :: u :: rest)[0]? (.word "instanceof") = false := by
    obtain ⟨s, more, rfl, mem⟩ := signs_head known spelled
    have others : ∀ o ∈ infixOperators, ofString "instanceof" ∉ signsOf o := by decide
    exact unfit_word fun same => others operator known (same ▸ mem)
  simp only [Body.furtherOperand, read_monad_bind, read_tryAccept_unfit noType,
    andThen_pure, Bool.false_eq_true, if_false]
  rw [read_parse, read_infixOperator (n + 2) (u :: rest) known spelled (Operand.value_ne operand (by decide)),
    andThen_pure, read_parse, read_expressionThree n x operand ends, andThen_pure]
  rfl

/-- **The operators and operands after the first operand** are read turn by turn. The induction is on them. -/
theorem turns_rest (n : Nat) (rest : List (Text × Operand))
    (known : ∀ o ∈ rest.map (·.1), o ∈ infixOperators)
    (spelled : tokens.map Token.spelling = spellingsAfter rest) (semicolon : last.value = ";") :
    ∃ parts : List (Text × Tree),
      (parts.map fun (o, x) => (o, x.bare)) = (rest.map fun (o, x) => (o, x.tree)) ∧
        Turns (readWithin (n + 3)) Body.binaryOperatorNext Body.furtherOperand (tokens ++ [last])
          (parts.map fun (o, x) => [.text o, x]) [last] := by
  induction rest generalizing tokens with
  | nil =>
    have stops := @read_binaryOperatorNext (readWithin (n + 3)) _ known _ _ spelled semicolon
    cases map_eq_nil_iff.1 spelled
    exact ⟨[], rfl, .done stops⟩
  | cons head rest ih =>
    have goes := @read_binaryOperatorNext (readWithin (n + 3)) _ known _ _ spelled semicolon
    obtain ⟨operator, x⟩ := head
    obtain ⟨here, knownLater⟩ := forall_mem_cons.1 known
    rw [spellingsAfter_cons] at spelled
    obtain ⟨signs, later, rfl, signsSpelled, spelled⟩ := map_eq_append_iff.1 spelled
    obtain ⟨t, later, rfl, operand, spelled⟩ := map_eq_cons_iff.1 spelled
    obtain ⟨parts, same, turns⟩ := ih knownLater spelled
    obtain ⟨u, further, ahead_eq, ends⟩ := tokens_head knownLater spelled semicolon
    refine ⟨(operator, x.tree.placeAt t.position) :: parts, ?_, .more goes ?_ turns⟩
    · rw [map_cons, map_cons, same]
      dsimp only
      rw [Tree.bare_placeAt, x.bare_tree]
    · rw [append_assoc, cons_append, ahead_eq]
      exact read_furtherOperand n here signsSpelled operand ends further

theorem length_le_spellingsAfter (rest : List (Text × Operand)) : rest.length ≤ (spellingsAfter rest).length := by
  induction rest with
  | nil => exact Nat.le_refl _
  | cons head rest ih =>
    rw [spellingsAfter_cons, length_append, length_cons, length_cons]
    omega

section

variable {c : Chain Operand} (known : ∀ o ∈ c.operators, o ∈ infixOperators) {t last : Token}
  {tokens : List Token} (first : t.spelling = c.first.spelling)
  (spelled : tokens.map Token.spelling = spellingsAfter c.rest) (semicolon : last.value = ";") (n : Nat)

include known first spelled semicolon in
/-- Operands with binary operators between them are read as their normal grouping. -/
theorem read_expressionTwo : ∃ g : Grouping Tree, g.chain.map Tree.bare = c.map Operand.tree ∧
      g.Normal (levelIn operatorLevels) ∧
        Rule.expressionTwo.readWithin (n + 5) (t :: (tokens ++ [last])) = .ok g.tree [last] := by
  obtain ⟨u, later, ahead_eq, ends⟩ := tokens_head known spelled semicolon
  obtain ⟨parts, same, turns⟩ := turns_rest n c.rest known spelled semicolon
  let read : Chain Tree := ⟨c.first.tree.placeAt t.position, parts⟩
  have bare : read.map Tree.bare = c.map Operand.tree := by
    refine Chain.ext ?_ same
    exact (Tree.bare_placeAt _ _).trans c.first.bare_tree
  have operators : read.operators = c.operators := by
    rw [← read.operators_map Tree.bare, bare, Chain.operators_map]
  obtain ⟨g, built, chain, normal⟩ := buildOperation_normal read fun o mem => known o (operators ▸ mem)
  refine ⟨g, chain ▸ bare, normal, ?_⟩
  have operand : Rule.expressionThree.readWithin (n + 4) (t :: (tokens ++ [last])) =
      .ok read.first (tokens ++ [last]) := by
    rw [ahead_eq]
    exact read_expressionThree (n + 1) c.first first ends
  have enough : parts.length ≤ (tokens ++ [last]).length + 1 := by
    have lengths := congrArg List.length same
    have tokenLengths := congrArg List.length spelled
    have bound := length_le_spellingsAfter c.rest
    simp only [length_map] at lengths tokenLengths
    rw [length_append, tokenLengths, lengths]
    omega
  have whole : Rule.expressionTwoRest.readWithin (n + 4) (tokens ++ [last]) =
      .ok (parts.flatMap fun (o, x) => [.text o, x]) [last] := by
    rw [readWithin, Rule.body, Body.expressionTwoRest, read_bind_ok (turns.read_whileTrue (by rwa [length_map]))]
    rfl
  rw [readWithin, Rule.body, Body.expressionTwo, read_monad_bind, read_parse, operand,
    andThen_pure, read_bind_ok (read_binaryOperatorNext known spelled semicolon)]
  cases empty : c.rest.isEmpty with
  | false =>
    have builtParts : buildOperation 0 (read.first :: parts.flatMap fun (o, x) => [.text o, x]) = .ok g.tree := built
    rw [Bool.not_false, if_pos rfl, read_monad_bind, read_parse, whole, andThen_pure, builtParts]
    rfl
  | true =>
    have none_left : c.rest = [] := isEmpty_iff.1 empty
    rw [none_left] at same spelled
    cases map_eq_nil_iff.1 same
    cases map_eq_nil_iff.1 spelled
    have alone : g.tree = read.first := (Except.ok.inj built).symm
    rw [Bool.not_true, if_neg Bool.false_ne_true, read_monad_pure, alone, nil_append]

include known first spelled semicolon in
/-- **An expression** of operands with binary operators between them, up to a semicolon. -/
theorem read_expression : ∃ g : Grouping Tree, g.chain.map Tree.bare = c.map Operand.tree ∧
      g.Normal (levelIn operatorLevels) ∧
        Rule.expression.readWithin (n + 7) (t :: (tokens ++ [last])) = .ok g.tree [last] := by
  obtain ⟨g, bare, normal, read⟩ := read_expressionTwo known first spelled semicolon n
  have ends : last.value ∈ enders := semicolon ▸ mem_cons_self
  have unfit {w : String} (apart : ofString w ∉ enders) :
      Pattern.fits [last][0]? (.word (ofString w)) = false :=
    unfit_word (ne_of_ender ends apart)
  have one : Rule.expressionOne.readWithin (n + 6) (t :: (tokens ++ [last])) = .ok g.tree [last] := by
    rw [readWithin, Rule.body, Body.expressionOne, read_monad_bind, read_parse, read, andThen_pure]
    simp only [read_monad_bind, read_tryAccept_unfit (unfit (w := "?") (by decide)),
      read_wouldAccept_one, unfit (w := "->") (by decide),
      read_tryAccept_unfit (unfit (w := "::") (by decide)), andThen_pure, Bool.false_eq_true,
      if_false, read_monad_pure]
  have noAssignment : isAmong (some last) assignmentOperators = false :=
    not_isAmong_of_ender ends (by decide)
  refine ⟨g, bare, normal, ?_⟩
  rw [readWithin, Rule.body, Body.expression, read_monad_bind, read_parse, one, andThen_pure]
  simp only [read_monad_bind, read_peek, andThen_pure, getElem?_cons_zero,
    noAssignment, Bool.false_eq_true, if_false, read_monad_pure]

end

end JavaSource.Grammar

import JavaSource.Parser.Entry
import JavaSource.Proofs.Expression.Operations
import JavaSource.Proofs.Parser.Simulation

/-!
# Operations printed and read again

An operation is printed without parentheses, so what is read again is the normal grouping of its operands and
operators. That is the operation itself exactly if it is normal: `parse_unparse_iff`.
-/

namespace JavaSource.Grammar

open List Vocabulary Entry

open Lexer

/-! ## The tokens of the text -/

def followers : List CodePoint := Text.ofString " ;"

variable {text : Text}

theorem tokenizes_operand (x : Operand) {d : CodePoint}
    {spellings : List (TokenClass × Text)} (follows : d ∈ followers) (later : Tokenizes (d :: text) spellings) :
    Tokenizes (x.text ++ d :: text) (x.spelling :: spellings) := by
  cases x with
  | name word isName =>
    have parts : ∀ d ∈ followers, Text.isIdentifierPart d = false := by decide
    exact tokenizes_name isName (parts d follows) later
  | integer digits mark isDecimal isMark =>
    have marks : ∀ d ∈ followers, d ∉ numberMarks := by decide
    exact tokenizes_integer isDecimal isMark (marks d follows) text later

theorem Operand.visible (x : Operand) (text : Text) : ∀ d ∈ (x.text ++ text).head?, Text.isBlank d = false := by
  intro d mem
  cases x with
  | name word isName =>
    cases word with
    | nil => cases isName.start
    | cons c word =>
      cases mem
      exact isIdentifierStart_visible isName.start
  | integer digits mark isDecimal isMark =>
    cases digits with
    | nil => cases isDecimal.first
    | cons c digits =>
      cases mem
      exact isDecimal_visible isDecimal.first

theorem infix_visible {operator : Text} (known : operator ∈ infixOperators) (text : Text) :
    ∀ d ∈ (operator ++ text).head?, Text.isBlank d = false := by
  have starts : ∀ operator ∈ infixOperators,
      operator ≠ [] ∧ ∀ d ∈ operator.head?, Text.isBlank d = false := by decide
  obtain ⟨nonempty, visible⟩ := starts operator known
  cases operator with
  | nil => exact absurd rfl nonempty
  | cons c operator => exact visible

theorem textAfter_head (rest : List (Text × Operand)) :
    ∃ d text, textAfter rest ++ [semicolon] = d :: text ∧ d ∈ followers := by
  cases rest with
  | nil => exact ⟨_, _, rfl, by decide⟩
  | cons head rest => exact ⟨' '.toNat, _, rfl, by decide⟩

theorem tokenizes_after (rest : List (Text × Operand)) (known : ∀ o ∈ rest.map (·.1), o ∈ infixOperators) :
    Tokenizes (textAfter rest ++ [semicolon])
      (spellingsAfter rest ++ [(.separator, [semicolon])]) := by
  induction rest with
  | nil =>
    have semicolon : Tokenizes ([semicolon] ++ []) [(.separator, [semicolon])] :=
      tokenizes_lexeme (by decide) (by decide) rfl tokenizes_nil
    exact semicolon
  | cons head rest ih =>
    obtain ⟨operator, x⟩ := head
    obtain ⟨here, known⟩ := forall_mem_cons.1 known
    obtain ⟨d, text, later_eq, follows⟩ := textAfter_head rest
    have later := ih known
    rw [later_eq] at later
    have operand := tokenizes_operand x follows later
    have spaced := tokenizes_blank (c := ' '.toNat) (by decide) (x.visible _) operand
    have read := tokenizes_blank (c := ' '.toNat) (by decide) (infix_visible here _)
      (tokenizes_operator here spaced)
    have text_eq : textAfter ((operator, x) :: rest) ++ [semicolon] =
        ' '.toNat :: (operator ++ ' '.toNat :: (x.text ++ d :: text)) := by
      rw [← later_eq, textAfter, flatMap_cons, ← textAfter]
      simp [Text.ofString]
    have spellings_eq : spellingsAfter ((operator, x) :: rest) ++ [(.separator, [semicolon])] =
        (signsOf operator).map (TokenClass.operator, ·) ++
          x.spelling :: (spellingsAfter rest ++ [(.separator, [semicolon])]) := by
      rw [spellingsAfter, flatMap_cons, ← spellingsAfter]
      simp
    rw [text_eq, spellings_eq]
    exact read

def Chain.spellings (c : Chain Operand) : List (TokenClass × Text) :=
  c.first.spelling :: spellingsAfter c.rest

theorem tokenizes_chain (c : Chain Operand) (known : ∀ o ∈ c.operators, o ∈ infixOperators) :
    Tokenizes (c.text ++ [semicolon]) (c.spellings ++ [(.separator, [semicolon])]) := by
  obtain ⟨d, text, later_eq, follows⟩ := textAfter_head c.rest
  have later := tokenizes_after c.rest known
  rw [later_eq] at later
  have read := tokenizes_operand c.first follows later
  rw [← later_eq, ← append_assoc] at read
  exact read

/-- The characters that have a meaning at the end of an expression or in an escape. -/
def special : List CodePoint := Text.ofString ";\\"

theorem Operand.text_plain (x : Operand) : ∀ c ∈ x.text, c ∉ special := by
  have never {P : CodePoint → Bool} {c : CodePoint} (holds : P c = true)
      (none : ∀ d ∈ special, P d = false) : c ∉ special :=
    fun mem => ne_of_holds holds (none c mem) rfl
  intro c mem
  cases x with
  | name word isName => exact never (isName.part c mem) (by decide)
  | integer digits mark isDecimal isMark =>
    rcases mem_append.1 mem with mem | mem
    · rcases isDecimal.each c mem with digit | rfl
      · exact never digit (by decide)
      · decide
    · have marks : ∀ mark ∈ integerMarks, ∀ c ∈ mark, c ∉ special := by decide
      exact marks mark isMark c mem

theorem Chain.text_plain (c : Chain Operand) (known : ∀ o ∈ c.operators, o ∈ infixOperators) :
    ∀ d ∈ c.text, d ∉ special := by
  have signs : ∀ o ∈ infixOperators, ∀ d ∈ o, d ∉ special := by decide
  have blank : ∀ d ∈ Text.ofString " ", d ∉ special := by decide
  intro d mem
  rcases mem_append.1 mem with mem | mem
  · exact c.first.text_plain d mem
  · obtain ⟨⟨operator, x⟩, among, mem⟩ := mem_flatMap.1 mem
    rw [mem_append, mem_append, mem_append] at mem
    rcases mem with ((mem | mem) | mem) | mem
    · exact blank d mem
    · exact signs operator (known operator (mem_map_of_mem among)) d mem
    · exact blank d mem
    · exact x.text_plain d mem

/-- **The tokens of a printed operation**, with the semicolon that is put behind it. -/
theorem tokenize_chain (c : Chain Operand) (known : ∀ o ∈ c.operators, o ∈ infixOperators) :
    ∃ tokens, tokenize .strict (.text (withSemicolon c.text)) = { tokens } ∧
      tokens.map Token.spelling = c.spellings ++ [(.separator, [semicolon])] := by
  have plain := c.text_plain known
  have ended : withSemicolon c.text = c.text ++ [semicolon] := by
    rw [withSemicolon, if_neg]
    intro last
    exact plain _ (mem_of_getLast? last) (by decide)
  rw [ended]
  refine (tokenizes_chain c known).tokenize fun d mem same => ?_
  rcases mem_append.1 mem with mem | mem
  · exact plain d mem (same ▸ by decide)
  · rw [mem_singleton.1 mem] at same
    exact absurd same (by decide)

/-! ## What is read -/

def Grouping.operation (e : Grouping Operand) : Tree := (e.map Operand.tree).tree

theorem parse_expression_eq {tokens : List Token} {t : Tree}
    (tokenized : tokenize .strict (.text (withSemicolon text)) = { tokens })
    (result : ((Parser.ofTokens tokens).run (Parser.perform plainly (.rule .expression))).1 = .ok t) :
    expression.parse (.text text) = .ok t := by
  have parser : Parser.ofSource .strict (.text (withSemicolon text)) = .ok (.ofTokens tokens) := by
    rw [Parser.ofSource, tokenized]
  simp only [Entry.parse, Entry.prepare, Entry.ended, Entry.mode, Entry.asked, bind, Except.bind, parser,
    result]

/-- The text of operands with binary operators between them is read as their normal grouping. -/
theorem parse_chain (c : Chain Operand) (known : ∀ o ∈ c.operators, o ∈ infixOperators) :
    ∃ (t : Tree) (e : Grouping Operand), expression.parse (.text c.text) = .ok t ∧
      t.bare = e.operation ∧ e.chain = c ∧ e.Normal (levelIn operatorLevels) := by
  obtain ⟨tokens, tokenized, spelled⟩ := tokenize_chain c known
  obtain ⟨before, semicolons, rfl, chainSpelled, semicolon⟩ := map_eq_append_iff.1 spelled
  obtain ⟨first, later, rfl, firstSpelled, laterSpelled⟩ := map_eq_cons_iff.1 chainSpelled
  obtain ⟨last, none_left, rfl, lastSpelled, nothing⟩ := map_eq_cons_iff.1 semicolon
  cases map_eq_nil_iff.1 nothing
  -- rules may nest deeper than an expression needs
  obtain ⟨n, deep, -⟩ := exists_nesting (k := 7) (first :: (later ++ [last])).length (by decide)
  obtain ⟨g, bare, normal, read⟩ :=
    read_expression known firstSpelled laterSpelled (Prod.mk.inj lastSpelled).2 n
  rw [← deep] at read
  have does := Parser.does_map (Rule.toTree .expression)
    (Parser.follow_does .expression (Parser.facing_ofTokens (first :: (later ++ [last]))))
  rw [Rule.reads, read, Outcome.andThen_pure] at does
  have chain : (g.map Tree.bare).chain = c.map Operand.tree := by rw [Grouping.chain_map, bare]
  obtain ⟨e, e_map, e_chain⟩ := Grouping.exists_map_of_chain chain
  refine ⟨g.tree, e, ?_, ?_, e_chain, ?_⟩
  · exact parse_expression_eq tokenized does.result
  · rw [g.bare_tree, ← e_map]
    rfl
  · rwa [← Grouping.normal_map Operand.tree, e_map, Grouping.normal_map]

/-- **Printed and read again**, an operation always gives the normal grouping of its operands and operators,
and so the operation itself exactly if it is normal. -/
theorem parse_unparse_iff (e : Grouping Operand)
    (known : ∀ o ∈ e.chain.operators, o ∈ Vocabulary.infixOperators) (t : Tree) (is : t.bare = e.operation) :
    ∃ (s : Text) (t' : Tree) (e' : Grouping Operand), unparse t = .ok (.text s) ∧
      Entry.expression.parse (.text s) = .ok t' ∧
        (t'.bare = e'.operation ∧ e'.chain = e.chain ∧ e'.Normal (levelIn operatorLevels)) ∧
          (t'.bare = t.bare ↔ e.Normal (levelIn operatorLevels)) := by
  obtain ⟨t', e', parsed, bare, chain, normal⟩ := parse_chain e.chain known
  refine ⟨_, t', e', unparse_grouping e is, parsed, ⟨bare, chain, normal⟩, ?_⟩
  have plain (e : Grouping Operand) :
      ∀ x ∈ (e.map Operand.tree).chain.operands, x.kind? ≠ some .binaryOperation := by
    intro x mem
    rw [Grouping.chain_map, Chain.operands_map] at mem
    obtain ⟨o, -, rfl⟩ := mem_map.1 mem
    exact o.tree_kind
  constructor
  · intro same
    rw [bare, is] at same
    have maps := Grouping.tree_injective (plain e') (plain e) same
    rwa [← Grouping.normal_map Operand.tree, ← maps, Grouping.normal_map]
  · intro eNormal
    rw [bare, is, normal.eq_of_chain_eq eNormal chain]

/-- The sum of a name and a shifted integer, which is not normal. -/
def sumOfShift : Grouping Operand :=
  .pair (.operand (.name "a" (by decide))) "+"
    (.pair (.operand (.integer "1_0" "L" (by decide) (by decide))) ">>>"
      (.operand (.name "b2" (by decide))))

theorem parse_unparse_iff_shift : (∀ o ∈ sumOfShift.chain.operators, o ∈ Vocabulary.infixOperators) ∧
      ((sumOfShift.operation.placeAt (some ⟨3, 7⟩)).put .label .null).bare = sumOfShift.operation ∧
        ∃ (s : Text) (t' : Tree) (e' : Grouping Operand),
          unparse ((sumOfShift.operation.placeAt (some ⟨3, 7⟩)).put .label .null) = .ok (.text s) ∧
            Entry.expression.parse (.text s) = .ok t' ∧
              (t'.bare = e'.operation ∧ e'.chain = sumOfShift.chain ∧
                e'.Normal (levelIn operatorLevels)) ∧
                (t'.bare = ((sumOfShift.operation.placeAt (some ⟨3, 7⟩)).put .label .null).bare ↔
                  sumOfShift.Normal (levelIn operatorLevels)) :=
  ⟨by decide, rfl, parse_unparse_iff sumOfShift (by decide) _ rfl⟩

end JavaSource.Grammar

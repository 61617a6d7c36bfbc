import JavaSource.Proofs.Lexer.Genuine
import JavaSource.Proofs.Lexer.Numbers

/-!
# Names and primitive types have their own class

A token that is read from a source is an identifier exactly if its value is a name, and a primitive type exactly
if its value is one of the reserved words for these: `tokenize_worded`. No other reader gives a value that starts
like a word.
-/

namespace JavaSource

open List Text Vocabulary

open Lexer in
/-- The class of the token tells names and primitive types from everything else. -/
structure Token.Worded (t : Token) : Prop where
  identifier : t.cls = .identifier ↔ IsName t.value
  basicType : t.cls = .basicType ↔ t.value ∈ Vocabulary.basicTypes

namespace Lexer

/-! ## Readers -/

/-- The reading gives a token whose class tells names and primitive types from everything else. -/
def Reading.Worded (r : Reading) (text : Text) : Prop :=
  ∀ lexeme, r.outcome = .ok lexeme →
    (lexeme.cls = .identifier ↔ IsName (text.take (lexeme.further + 1))) ∧
    (lexeme.cls = .basicType ↔ text.take (lexeme.further + 1) ∈ Vocabulary.basicTypes)

variable {rest : Text} {c : CodePoint} {r : Reading}

/-- What does not start like a word must not be classed as one. -/
theorem worded_of_head (noStart : isIdentifierStart c = false)
    (other : ∀ lexeme, r.outcome = .ok lexeme → lexeme.cls ≠ .identifier ∧ lexeme.cls ≠ .basicType) :
    r.Worded (c :: rest) := by
  have starts : ∀ w ∈ basicTypes, w.head?.any isIdentifierStart = true := by decide
  have noWord {n : Nat} : ¬ ((c :: rest).take (n + 1)).head?.any isIdentifierStart = true := by
    rw [take_succ_cons, head?_cons, Option.any_some, noStart]
    exact Bool.false_ne_true
  intro lexeme ok
  obtain ⟨noIdentifier, noType⟩ := other lexeme ok
  exact ⟨⟨fun is => absurd is noIdentifier, fun name => absurd name.start noWord⟩,
    ⟨fun is => absurd is noType, fun mem => absurd (starts _ mem) noWord⟩⟩

theorem worded_of_literal (noStart : isIdentifierStart c = false)
    (literal : ∀ lexeme, r.outcome = .ok lexeme → lexeme.cls.isA .literal = true) : r.Worded (c :: rest) := by
  refine worded_of_head noStart fun lexeme ok => ?_
  have isLiteral := literal lexeme ok
  constructor
  · intro is
    rw [is] at isLiteral
    cases isLiteral
  · intro is
    rw [is] at isLiteral
    cases isLiteral

theorem operatorReading?_worded (read : operatorReading? (c :: rest) = some r) : r.Worded (c :: rest) := by
  obtain ⟨op, found, rfl⟩ := Option.map_eq_some_iff.1 read
  have mem : op ∈ operators := mem_of_find?_eq_some found
  have others : ∀ op ∈ operators, op ≠ [] ∧ op.head?.any isIdentifierStart = false := by
    decide
  obtain ⟨nonempty, noStart⟩ := others op mem
  rw [leadingOperator?] at found
  have starts := find?_some found
  cases op with
  | nil => exact absurd rfl nonempty
  | cons d op =>
    obtain ⟨rfl, -⟩ := cons_prefix_cons.1 (List.isPrefixOf_iff_prefix.1 starts)
    refine worded_of_head noStart ?_
    rintro lexeme ⟨⟩
    constructor
    · intro is
      cases is
    · intro is
      cases is

theorem classOfWord_basicType (word : Text) :
    classOfWord word = .basicType ↔ word ∈ basicTypes := by
  have reserved : ∀ w ∈ basicTypes, w ∈ keywords := by decide
  unfold classOfWord
  constructor
  · intro is
    split at is
    · split at is
      · rename_i contained
        exact contains_iff_mem.1 contained
      · split at is <;> cases is
    · split at is
      · cases is
      · split at is <;> cases is
  · intro mem
    rw [if_pos (contains_iff_mem.2 (reserved word mem)), if_pos (contains_iff_mem.2 mem)]

theorem wordReading_worded (rest : Text) (start : isIdentifierStart c = true) :
    (wordReading (c :: rest)).Worded (c :: rest) := by
  rintro lexeme outcome
  obtain ⟨value, is⟩ := wordReading_outcome start outcome
  rw [value, is]
  refine ⟨⟨fun free => ⟨start, forall_mem_cons.2 ⟨?_, fun d mem => mem_takeWhile_imp mem⟩, free⟩, IsName.free⟩,
    classOfWord_basicType _⟩
  rw [isIdentifierPart, start, Bool.true_or]

theorem lexeme?_worded (read : lexeme? c rest = some r) : r.Worded (c :: rest) := by
  have marks : ∀ d ∈ ofString "@.'\"" ++ separators ++ ofString "0123456789",
      isIdentifierStart d = false := by decide
  have single {cls : TokenClass} (mem : c ∈ ofString "@.'\"" ++ separators)
      (other : cls ≠ .identifier ∧ cls ≠ .basicType) : (Reading.plain cls 1).Worded (c :: rest) := by
    refine worded_of_head (marks c (mem_append_left _ mem)) ?_
    rintro lexeme ⟨⟩
    exact other
  cases lexeme?_readBy read with
  | operator found => exact operatorReading?_worded found
  | atSign isSign => exact single (isSign ▸ by decide) (by decide)
  | point isPoint =>
    refine worded_of_literal (marks c (isPoint ▸ by decide)) fun lexeme ok => ?_
    exact (Number.decimal_isNumber (isPoint ▸ by decide) ok).literal
  | separator separator => exact single (mem_append_right _ separator) (by decide)
  | quotation quote =>
    have mem : c ∈ ofString "@.'\"" ++ separators ++ ofString "0123456789" := by
      rcases Bool.or_eq_true_iff.1 quote with quote | quote
      · exact eq_of_beq quote ▸ by decide
      · exact eq_of_beq quote ▸ by decide
    refine worded_of_literal (marks c mem) fun lexeme ok => ?_
    unfold Quotation.read at ok
    split at ok <;> cases ok <;> rfl
  | digit digit =>
    have mem : c ∈ Number.characters := Number.mem_characters (Number.isHex_of_isDecimal digit)
    exact worded_of_literal (marks c (mem_append_right _ (mem_digits digit)))
      fun lexeme ok => (Number.read_isNumber mem ok).literal
  | word start => exact wordReading_worded rest start

/-- **Every token of a source** tells by its class whether it is a name or a primitive type. -/
theorem tokenize_worded (mode : Mode) (source : Source) : ∀ t ∈ (tokenize mode source).tokens, t.Worded := by
  refine forall_tokenize (fun p c rest r lexeme starts read outcome => ?_) mode source
  obtain ⟨identifier, basicType⟩ := lexeme?_worded read lexeme outcome
  rw [← starts] at identifier basicType
  exact ⟨identifier, basicType⟩

end Lexer

end JavaSource

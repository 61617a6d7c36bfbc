import JavaSource.Grammar.Routine
import JavaSource.Proofs.Lexer.Genuine
import JavaSource.Proofs.Lexer.Neighbours

/-!
# The classes of tokens

Where a source is read without failure, the class of each token is right for its value and for the text around it:
operators and names are as long as they can be, words have the narrowest class that they belong to, and no literal and
no name is spelled like a reserved word, an operator or a separator. `tokenize_classed` says so for every source.
-/

namespace JavaSource

open List Text

/-- The words of a class that is made of words. -/
def TokenClass.words? : TokenClass → Option (List Text)
  | .keyword => some Vocabulary.keywords
  | .modifier => some Vocabulary.modifiers
  | .basicType => some Vocabulary.basicTypes
  | .boolean => some Vocabulary.booleans
  | .null => some [Vocabulary.null]
  | _ => none

/-- The reserved words, the operators and the separators. -/
def Vocabulary.fixed : List Text := keywords ++ operators ++ separators.map fun c => [c]

/-- The class of the token is right, where the text from its start on is `here`. -/
structure Token.Classed (t : Token) (here : Text) : Prop where
  operator : t.cls = .operator → t.value ∈ Vocabulary.operators ∧
    ∀ op ∈ Vocabulary.operators, op <+: here → op.length ≤ t.value.length
  identifier : t.cls = .identifier → t.value.head?.any Text.isIdentifierStart = true ∧
    (∀ c ∈ t.value, Text.isIdentifierPart c = true) ∧
    (∀ c ∈ (here.drop t.value.length).head?, Text.isIdentifierPart c = false) ∧
    t.value ∉ Vocabulary.keywords ∧ t.value ∉ Vocabulary.booleans ∧ t.value ≠ Vocabulary.null
  word : ∀ words, t.cls.words? = some words → t.value ∈ words
  narrowest : ∀ cls words, cls.words? = some words → t.value ∈ words → t.cls.isA cls = true
  separator : t.cls = .separator → (∃ c ∈ Vocabulary.separators, t.value = [c]) ∧ ¬ Text.ofString "..." <+: here
  apart : t.cls.isA .literal = true ∨ t.cls.isA .identifier = true →
    ∀ w ∈ Vocabulary.fixed, Grammar.Pattern.fits (some t) (.word w) = false

namespace Lexer

open Vocabulary Number

variable {t : Token} {here rest : Text} {c : CodePoint} {lexeme : Lexeme}

theorem not_fits (apart : t.value ∉ fixed) : ∀ w ∈ fixed, Grammar.Pattern.fits (some t) (.word w) = false := by
  intro w mem
  refine beq_false_of_ne fun same => apart ?_
  cases same
  exact mem

/-- What does not start like a word is no word. -/
theorem classed_of_head (noStart : t.value.head?.any isIdentifierStart = false) (noWord : t.cls.words? = none)
    (noName : t.cls ≠ .identifier)
    (operator : t.cls = .operator → t.value ∈ operators ∧
      ∀ op ∈ operators, op <+: here → op.length ≤ t.value.length)
    (separator : t.cls = .separator → (∃ c ∈ separators, t.value = [c]) ∧ ¬ ofString "..." <+: here)
    (apart : t.cls.isA .literal = true ∨ t.cls.isA .identifier = true → t.value ∉ fixed) : t.Classed here where
  operator := operator
  identifier is := absurd is noName
  word words is := by
    rw [noWord] at is
    cases is
  narrowest cls words is mem := by
    have starts : ∀ cls ∈ TokenClass.all, ∀ words ∈ cls.words?, ∀ w ∈ words,
        w.head?.any isIdentifierStart = true := by decide
    have start := starts cls (by cases cls <;> decide) words is _ mem
    rw [noStart] at start
    cases start
  separator := separator
  apart is := not_fits (apart is)

/-! ## Operators and separators -/

/-- The operators are searched by length, so the one that is found is the longest. -/
theorem leadingOperator?_longest {text op : Text} (found : leadingOperator? text = some op) :
    op ∈ operators ∧ op <+: text ∧ ∀ other ∈ operators, other <+: text → other.length ≤ op.length := by
  have byLength : operators.Pairwise fun first second => second.length ≤ first.length := by decide
  obtain ⟨starts, longer, shorter, split, none⟩ := find?_eq_some_iff_append.1 found
  refine ⟨mem_of_find?_eq_some found, isPrefixOf_iff_prefix.1 starts, fun other mem there => ?_⟩
  rw [split] at mem byLength
  rcases mem_append.1 mem with mem | mem
  · have missing := none other mem
    rw [List.isPrefixOf_iff_prefix.2 there] at missing
    cases missing
  · rcases mem_cons.1 mem with rfl | mem
    · exact Nat.le_refl _
    · exact rel_of_pairwise_cons (pairwise_append.1 byLength).2.1 mem

theorem operator_classed {op : Text} (found : leadingOperator? here = some op) (cls : t.cls = .operator)
    (value : t.value = op) : t.Classed here := by
  obtain ⟨mem, -, longest⟩ := leadingOperator?_longest found
  have others : ∀ op ∈ operators, op.head?.any isIdentifierStart = false := by decide
  refine classed_of_head (value ▸ others op mem) (cls ▸ rfl) (by rw [cls]; decide) (fun _ => value ▸ ⟨mem, longest⟩)
    (fun is => ?_) fun is => ?_
  · cases cls.symm.trans is
  · rw [cls] at is
    rcases is with is | is <;> cases is

/-- Where an ellipsis starts, an operator is read. -/
theorem cls_of_ellipsis (starts : ofString "..." <+: c :: rest)
    (read : lexeme? c rest = some { outcome := .ok lexeme }) : lexeme.cls = .operator := by
  obtain ⟨back, split⟩ := starts
  cases split
  obtain ⟨⟩ := read
  rfl

theorem separator_classed (separator : c ∈ separators) (noEllipsis : ¬ ofString "..." <+: here)
    (cls : t.cls = .separator) (value : t.value = [c]) : t.Classed here := by
  have others : ∀ c ∈ separators, isIdentifierStart c = false := by decide
  refine classed_of_head ?_ (cls ▸ rfl) (by rw [cls]; decide) (fun is => ?_)
    (fun _ => ⟨⟨c, separator, value⟩, noEllipsis⟩) fun is => ?_
  · rw [value, head?_cons, Option.any_some, others c separator]
  · cases cls.symm.trans is
  · rw [cls] at is
    rcases is with is | is <;> cases is

/-! ## Words -/

theorem mem_words_classOfWord {word : Text} {words : List Text} (is : (classOfWord word).words? = some words) :
    word ∈ words := by
  unfold classOfWord at is
  repeat' split at is
  all_goals cases is
  all_goals simp_all

theorem classOfWord_isA {cls : TokenClass} {words : List Text} (is : cls.words? = some words) {word : Text}
    (mem : word ∈ words) : (classOfWord word).isA cls = true := by
  have each : ∀ cls ∈ TokenClass.all, ∀ words ∈ cls.words?, ∀ w ∈ words, (classOfWord w).isA cls = true := by
    decide
  exact each cls (by cases cls <;> decide) words is word mem

theorem notMem_of_classOfWord {word : Text} (cls : TokenClass) {words : List Text} (is : cls.words? = some words)
    (other : (classOfWord word).isA cls = false) : word ∉ words := by
  intro mem
  cases other.symm.trans (classOfWord_isA is mem)

theorem word_classed (start : isIdentifierStart c = true) (cls : t.cls = classOfWord t.value)
    (value : t.value = c :: rest.takeWhile isIdentifierPart) : t.Classed (c :: rest) := by
  have head : t.value.head?.any isIdentifierStart = true := by rwa [value]
  have noSign {sign : TokenClass} (noWord : sign.isWord = false) : t.cls ≠ sign := by
    rintro rfl
    rw [cls, isWord_classOfWord] at noWord
    cases noWord
  refine ⟨fun is => absurd is (noSign rfl), fun is => ⟨head, ?_, ?_, ?_⟩, fun words is => ?_, fun cls' words is mem => ?_,
    fun is => absurd is (noSign rfl), fun is => not_fits ?_⟩
  · rw [value]
    have part : isIdentifierPart c = true := by rw [isIdentifierPart, start, Bool.true_or]
    exact forall_mem_cons.2 ⟨part, fun d mem => mem_takeWhile_imp mem⟩
  · rw [value, length_cons, drop_succ_cons, drop_takeWhile]
    intro d next
    have behind := head?_dropWhile_not isIdentifierPart rest
    rw [Option.mem_def.1 next] at behind
    simpa using behind
  · rw [cls] at is
    refine ⟨notMem_of_classOfWord .keyword rfl (is ▸ rfl),
      notMem_of_classOfWord .boolean rfl (is ▸ rfl), ?_⟩
    exact fun same => notMem_of_classOfWord .null rfl (is ▸ rfl) (mem_singleton.2 same)
  · exact mem_words_classOfWord (cls ▸ is)
  · exact cls ▸ classOfWord_isA is mem
  · have keyword : ∀ w ∈ keywords, (classOfWord w).isA .literal = false ∧ (classOfWord w).isA .identifier = false := by
      decide
    have signs : ∀ w ∈ operators ++ separators.map (fun c => [c]), w.head?.any isIdentifierStart = false := by
      decide
    intro mem
    rw [fixed, append_assoc] at mem
    rcases mem_append.1 mem with mem | mem
    · obtain ⟨noLiteral, noName⟩ := keyword _ mem
      rw [← cls] at noLiteral noName
      rcases is with is | is
      · cases noLiteral.symm.trans is
      · cases noName.symm.trans is
    · cases (signs _ mem).symm.trans head

/-! ## Literals -/

/-- The characters with which numbers and quotations start. -/
def literalMarks : Text := Text.ofString "0123456789'\"."

theorem literal_classed {word : Text} (mark : c ∈ literalMarks) (value : t.value = c :: word)
    (cls : t.cls ∈ .string :: classes) (apart : c :: word ∉ fixed) : t.Classed here := by
  have noWords : ∀ c ∈ literalMarks, isIdentifierStart c = false := by decide
  have others : ∀ cls ∈ .string :: classes, cls.words? = none ∧ cls ≠ .identifier ∧ cls ≠ .operator ∧
      cls ≠ .separator := by decide
  obtain ⟨noWord, noName, noOperator, noSeparator⟩ := others _ cls
  refine classed_of_head ?_ noWord noName (fun is => absurd is noOperator) (fun is => absurd is noSeparator)
    fun _ => value ▸ apart
  rw [value, head?_cons, Option.any_some, noWords c mark]

theorem notMem_fixed_of_head (mark : c ∈ literalMarks) (noPoint : c ≠ '.'.toNat) (word : Text) : c :: word ∉ fixed := by
  have heads : ∀ w ∈ fixed, ∀ c ∈ w.head?, c ∈ literalMarks → c = '.'.toNat := by decide
  exact fun mem => noPoint (heads _ mem c rfl mark)

/-- A number that starts with a point has a digit behind it, or else nothing could be read on. -/
theorem point_notMem_fixed {p : Place} {tokens : List Token} (starts : p.rest = '.'.toNat :: rest)
    (digit : rest.head?.any isDigit = true) (read : Number.plain (decimal ('.'.toNat :: rest)) = { outcome := .ok lexeme })
    (later : Scans (p.afterToken lexeme) tokens) : '.'.toNat :: rest.take lexeme.further ∉ fixed := by
  have points : ∀ w ∈ fixed, w.head? = some '.'.toNat → w.tail.head?.all (· == '.'.toNat) = true := by decide
  obtain ⟨d, head, digit⟩ := (Option.any_eq_true _ _).1 digit
  obtain ⟨back, rfl⟩ := head?_eq_some_iff.1 head
  cases further : lexeme.further with
  | zero =>
    have reads := later.reads
    rw [Place.rest_afterToken, further, starts, Nat.zero_add, drop_succ_cons, drop_zero] at reads
    have := two_le_of_point (reads.isDecimal_of_isDigit digit) read
    omega
  | succ k =>
    intro mem
    have same := points _ mem rfl
    rw [take_succ_cons, tail_cons, head?_cons, Option.all_some, beq_iff_eq] at same
    have noDigit : isDigit '.'.toNat = false := by decide
    cases noDigit.symm.trans (same ▸ digit)

/-! ## All tokens -/

theorem token_classed {p : Place} {tokens : List Token} (starts : p.rest = c :: rest)
    (read : lexeme? c rest = some { outcome := .ok lexeme }) (later : Scans (p.afterToken lexeme) tokens) :
    (p.token lexeme).Classed p.rest := by
  have value : (p.token lexeme).value = c :: rest.take lexeme.further := by
    rw [Place.token, starts, take_succ_cons]
  have noEllipsis : ofString "..." <+: c :: rest → lexeme.cls = .operator := fun ellipsis => cls_of_ellipsis ellipsis read
  rw [starts]
  generalize same : ({ outcome := .ok lexeme } : Reading) = reading at read
  have ok : reading.outcome = .ok lexeme := same ▸ rfl
  cases lexeme?_readBy read with
  | operator found =>
    obtain ⟨op, leading, rfl⟩ := Option.map_eq_some_iff.1 found
    cases ok
    refine operator_classed leading rfl ?_
    obtain ⟨mem, ⟨back, split⟩, -⟩ := leadingOperator?_longest leading
    have nonempty : ∀ op ∈ operators, op.length - 1 + 1 = op.length := by decide
    rw [Place.token, starts, ← split, Lexeme.ofLength, nonempty op mem, take_left]
  | atSign isSign =>
    cases ok
    subst isSign
    have noStart : isIdentifierStart '@'.toNat = false := by decide
    refine classed_of_head (value ▸ noStart) rfl (fun is => ?_) (fun is => ?_) (fun is => ?_) fun is => ?_
    · cases is
    · cases is
    · cases is
    · rcases is with is | is <;> cases is
  | point isPoint digit =>
    subst isPoint
    have number := (decimal_isNumber (by decide) ok).cls
    exact literal_classed (by decide) value (mem_cons_of_mem _ number) (point_notMem_fixed starts digit same.symm later)
  | separator separator =>
    cases ok
    exact separator_classed separator (fun ellipsis => by cases noEllipsis ellipsis) rfl value
  | quotation quote =>
    have string : lexeme.cls = .string := by
      unfold Quotation.read at ok
      split at ok <;> cases ok <;> rfl
    have mark : c ∈ literalMarks ∧ c ≠ '.'.toNat := by
      rcases Bool.or_eq_true_iff.1 quote with quote | quote
      · rw [eq_of_beq quote]
        decide
      · rw [eq_of_beq quote]
        decide
    exact literal_classed mark.1 value (mem_cons.2 (.inl string)) (notMem_fixed_of_head mark.1 mark.2 _)
  | digit digit =>
    have number := (read_isNumber (mem_characters (isHex_of_isDecimal digit)) ok).cls
    have marks : ∀ c ∈ ofString "0123456789", c ∈ literalMarks ∧ c ≠ '.'.toNat := by decide
    obtain ⟨mark, noPoint⟩ := marks c (mem_digits digit)
    exact literal_classed mark value (mem_cons_of_mem _ number) (notMem_fixed_of_head mark noPoint _)
  | word start =>
    obtain ⟨value, cls⟩ := wordReading_outcome start ok
    rw [← starts] at value
    exact word_classed start (cls.trans (congrArg _ value.symm)) value

end Lexer

/-- **Classes.** A source that is read without failure is, after its escapes are decoded, a gap, the value of the first
token, a gap, and so on, and each token has the class that is right for its value at its place. -/
theorem tokenize_classed (source : Source) (ok : (tokenize .strict source).failure = none) :
    ∃ text, (Lexer.unescape source.decoded).outcome = .ok text ∧
      Lexer.Laid Token.Classed text (tokenize .strict source).tokens := by
  obtain ⟨text, unescaped, read⟩ := tokenize_strict_ok ok
  rw [read] at ok ⊢
  exact ⟨text, unescaped, (Lexer.scans_of_ok _ ok).laid fun starts read later => Lexer.token_classed starts read later⟩

/-- In the text stand a word inside a longer one, an operator that starts like a longer one, a point in front of a digit
and an ellipsis. -/
theorem tokenize_classed_ellipsis : (tokenize .strict (.text "int integer >>>= a ... .5f // ...")).failure = none ∧
    ∃ text, (Lexer.unescape "int integer >>>= a ... .5f // ...").outcome = .ok text ∧
      Lexer.Laid Token.Classed text (tokenize .strict (.text "int integer >>>= a ... .5f // ...")).tokens := by
  have ok : (tokenize .strict (.text "int integer >>>= a ... .5f // ...")).failure = none := by decide +kernel
  exact ⟨ok, tokenize_classed (.text "int integer >>>= a ... .5f // ...") ok⟩

end JavaSource

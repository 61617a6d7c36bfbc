import JavaSource.Proofs.Lexer.Digits

/-!
# Names, decimal integers and operators in front of the reader

A word that is followed by a character that cannot belong to it is read as one token: `tokenizes_name` and
`tokenizes_integer`. A binary operator is read as its signs: `tokenizes_operator`. Put one after the other,
with blanks between them where they need some, they give the tokens of a text.
-/

namespace JavaSource

open List Text Vocabulary

def Token.spelling (t : Token) : TokenClass × Text := (t.cls, t.value)

namespace Lexer

/-- The text is read to its end, without complaint, as tokens of these classes and values. -/
def Tokenizes (text : Text) (spellings : List (TokenClass × Text)) : Prop :=
  ∀ p : Place, p.rest = text → ∃ tokens, Scans p tokens ∧ tokens.map Token.spelling = spellings

theorem tokenizes_nil : Tokenizes [] [] := fun _ ended => ⟨[], .done ended, rfl⟩

variable {text word : Text} {spellings : List (TokenClass × Text)} {c d : CodePoint} {P : CodePoint → Bool}

theorem tokenizes_blank (blank : isBlank c = true) (visible : ∀ d ∈ text.head?, isBlank d = false)
    (later : Tokenizes text spellings) : Tokenizes (c :: text) spellings := by
  intro p starts
  have none_further : text.takeWhile isBlank = [] := by
    cases text with
    | nil => rfl
    | cons d text => exact takeWhile_cons_of_neg (by simp [visible d rfl])
  obtain ⟨tokens, scans, spelled⟩ := later (p.skip 1) (by rw [Place.rest_skip, starts]; rfl)
  refine ⟨tokens, .blanks starts blank ?_, spelled⟩
  rw [none_further]
  exact scans

theorem tokenizes_lexeme {c : CodePoint} {word text : Text} {cls : TokenClass}
    {spellings : List (TokenClass × Text)} (visible : isBlank c = false)
    (uncommented : comment? (c :: word ++ text) = none)
    (read : lexeme? c (word ++ text) = some (.plain cls (c :: word).length))
    (later : Tokenizes text spellings) : Tokenizes (c :: word ++ text) ((cls, c :: word) :: spellings) := by
  intro p starts
  have length : (c :: word).length - 1 + 1 = (c :: word).length := by simp
  obtain ⟨tokens, scans, spelled⟩ := later (p.afterToken ⟨cls, (c :: word).length - 1⟩) (by
    rw [Place.rest_afterToken, starts, length, drop_left])
  refine ⟨_, .lexeme starts visible uncommented read scans, ?_⟩
  rw [map_cons, spelled, Token.spelling, Place.token, starts, Lexeme.ofLength, length, take_left]

/-! ## Kinds of characters -/

variable {ranges : List (CodePoint × CodePoint)}

theorem exists_range_of_inRanges
    (among : inRanges ranges c = true) : ∃ range ∈ ranges, range.1 ≤ c ∧ c ≤ range.2 := by
  induction ranges with
  | nil => cases among
  | cons range ranges ih =>
    obtain ⟨lo, hi⟩ := range
    rw [inRanges, Bool.and_eq_true, Bool.or_eq_true, decide_eq_true_eq, decide_eq_true_eq] at among
    obtain ⟨le, among⟩ := among
    rcases among with here | later
    · exact ⟨_, mem_cons_self, le, here⟩
    · obtain ⟨range, mem, bounds⟩ := ih later
      exact ⟨range, mem_cons_of_mem _ mem, bounds⟩

def members (ranges : List (CodePoint × CodePoint)) : List CodePoint :=
  ranges.flatMap fun (lo, hi) => List.range' lo (hi + 1 - lo)

theorem mem_members
    (among : inRanges ranges c = true) : c ∈ members ranges := by
  obtain ⟨⟨lo, hi⟩, mem, le, ge⟩ := exists_range_of_inRanges among
  have among : c ∈ List.range' lo (hi + 1 - lo) := by
    rw [mem_range'_1, Nat.add_sub_of_le (Nat.le_succ_of_le (Nat.le_trans le ge))]
    exact ⟨le, Nat.lt_succ_of_le ge⟩
  exact mem_flatMap.2 ⟨_, mem, among⟩

def blanks : List CodePoint := members Text.blankRanges

theorem mem_blanks (blank : isBlank c = true) : c ∈ blanks := mem_members blank

/-- What holds of no white space holds of visible characters only. -/
theorem visible_of (holds : P c = true) (never : ∀ b ∈ blanks, P b = false) : isBlank c = false := by
  cases blank : isBlank c with
  | false => rfl
  | true =>
    have fails := never c (mem_blanks blank)
    rw [holds] at fails
    cases fails

theorem ne_of_holds (holds : P c = true) (fails : P d = false) : c ≠ d := by
  rintro rfl
  rw [holds] at fails
  cases fails

theorem isIdentifierStart_visible (start : isIdentifierStart c = true) :
    isBlank c = false := visible_of start (by decide +kernel)

theorem isDecimal_visible (digit : Number.isDecimal c = true) :
    isBlank c = false := visible_of digit (by decide)

/-! ## What is no comment -/

theorem isPrefixOf_cons_ne (ne : c ≠ d) (sign text : Text) : (d :: sign).isPrefixOf (c :: text) = false := by
  rw [isPrefixOf_cons_cons, beq_false_of_ne ne.symm, Bool.false_and]

/-- A sign that a text cannot go on with ends the search for it. -/
theorem isPrefixOf_append {sign : Text} (apart : c ∉ sign) (text : Text) :
    sign.isPrefixOf (word ++ c :: text) = sign.isPrefixOf word := by
  induction sign generalizing word with
  | nil => rfl
  | cons d sign ih =>
    rw [mem_cons, not_or] at apart
    cases word with
    | nil => exact isPrefixOf_cons_ne apart.1 sign text
    | cons e word =>
      rw [cons_append, isPrefixOf_cons_cons, isPrefixOf_cons_cons, ih apart.2]

theorem comment?_of_ne (ne : c ≠ '/'.toNat) (text : Text) : comment? (c :: text) = none := by
  have line : (ofString "//").isPrefixOf (c :: text) = false := isPrefixOf_cons_ne ne _ text
  have block : (ofString "/*").isPrefixOf (c :: text) = false := isPrefixOf_cons_ne ne _ text
  rw [comment?, line, block]
  rfl

/-! ## The choice of a reader -/

/-- The characters that decide on the reader of a lexeme before numbers, words and operators are
considered. -/
def leadingMarks : List CodePoint := Text.ofString ".@'\"" ++ Vocabulary.separators

theorem lexeme?_of_unmarked (unmarked : c ∉ leadingMarks) (rest : Text) : lexeme? c rest =
      if Number.isDecimal c then some (Number.read (c :: rest))
      else if isIdentifierStart c then some (wordReading (c :: rest))
      else operatorReading? (c :: rest) := by
  have ne {d : CodePoint} (mem : d ∈ leadingMarks) : c ≠ d := fun same => unmarked (same ▸ mem)
  have dots : (ofString "..").isPrefixOf (c :: rest) = false :=
    isPrefixOf_cons_ne (ne (by decide)) _ rest
  have separator : separators.contains c = false := by
    rw [Bool.eq_false_iff, ne_eq, contains_iff_mem]
    exact fun mem => unmarked (mem_append_right _ mem)
  simp only [lexeme?, dots, Bool.false_and, Bool.false_eq_true, if_false, separator, Bool.or_false,
    beq_false_of_ne (ne (d := '@'.toNat) (by decide)), beq_false_of_ne (ne (d := '.'.toNat) (by decide)),
    beq_false_of_ne (ne (d := '\''.toNat) (by decide)),
    beq_false_of_ne (ne (d := '"'.toNat) (by decide))]

/-- What holds of no mark holds of other characters only. -/
theorem unmarked_of (holds : P c = true) (never : ∀ d ∈ leadingMarks, P d = false) : c ∉ leadingMarks :=
  fun mem => ne_of_holds holds (never c mem) rfl

/-! ## Names -/

/-- A simple name: a word of the characters of identifiers that has no meaning of its own. -/
structure IsName (word : Text) : Prop where
  start : word.head?.any Text.isIdentifierStart = true
  part : ∀ c ∈ word, Text.isIdentifierPart c = true
  free : Vocabulary.classOfWord word = .identifier

instance (word : Text) : Decidable (IsName word) :=
  decidable_of_iff (_ ∧ _ ∧ _) ⟨fun ⟨h₁, h₂, h₃⟩ => ⟨h₁, h₂, h₃⟩, fun h => ⟨h.start, h.part, h.free⟩⟩

theorem mem_digits (digit : Number.isDecimal c = true) : c ∈ ofString "0123456789" := by
  have small : ∀ d < 58, 48 ≤ d → d ∈ ofString "0123456789" := by decide
  rw [Number.isDecimal, Bool.and_eq_true, decide_eq_true_eq, decide_eq_true_eq] at digit
  exact small c (Nat.lt_succ_of_le digit.2) digit.1

theorem not_isDecimal_of_start (start : isIdentifierStart c = true) : Number.isDecimal c = false := by
  have others : ∀ d ∈ ofString "0123456789", isIdentifierStart d = false := by decide
  cases digit : Number.isDecimal c with
  | false => rfl
  | true => exact absurd rfl (ne_of_holds start (others c (mem_digits digit)))

/-- A word is read up to a character that cannot go on with it. -/
theorem tokenizes_word
    (starts : word.head?.any isIdentifierStart = true) (part : ∀ c ∈ word, isIdentifierPart c = true)
    (ends : ∀ d ∈ text.head?, isIdentifierPart d = false) (later : Tokenizes text spellings) :
    Tokenizes (word ++ text) ((classOfWord word, word) :: spellings) := by
  cases word with
  | nil => cases starts
  | cons c word =>
    have start : isIdentifierStart c = true := starts
    have slash : c ≠ '/'.toNat := ne_of_holds start (by decide)
    have unmarked : c ∉ leadingMarks := unmarked_of start (by decide)
    have stops : text.takeWhile isIdentifierPart = [] := by
      cases text with
      | nil => rfl
      | cons d text => exact takeWhile_cons_of_neg (by simp [ends d rfl])
    have whole : (c :: word ++ text).takeWhile isIdentifierPart = c :: word := by
      rw [takeWhile_append_of_pos part, stops, append_nil]
    refine tokenizes_lexeme (isIdentifierStart_visible start) (comment?_of_ne slash _) ?_ later
    rw [lexeme?_of_unmarked unmarked, if_neg (by simp [not_isDecimal_of_start start]), if_pos start,
      wordReading, ← cons_append, whole]

theorem tokenizes_name (name : IsName word) (ends : isIdentifierPart d = false)
    (later : Tokenizes (d :: text) spellings) : Tokenizes (word ++ d :: text) ((.identifier, word) :: spellings) := by
  have read := tokenizes_word name.start name.part (by rintro _ ⟨⟩; exact ends) later
  rwa [name.free] at read

/-! ## Decimal integers -/

/-- The digits of a decimal integer: underscores may stand between them, and no octal digit comes right after
a zero at the start. -/
structure IsDecimal (digits : Text) : Prop where
  first : digits.head?.any Number.isDecimal = true
  last : digits.getLast?.any Number.isDecimal = true
  each : ∀ c ∈ digits, Number.isDecimal c = true ∨ c = '_'.toNat
  notOctal : digits.head? = some '0'.toNat → digits[1]?.any (Text.oneOf "01234567") = false

instance (digits : Text) : Decidable (IsDecimal digits) :=
  decidable_of_iff (_ ∧ _ ∧ _ ∧ _)
    ⟨fun ⟨h₁, h₂, h₃, h₄⟩ => ⟨h₁, h₂, h₃, h₄⟩, fun h => ⟨h.first, h.last, h.each, h.notOctal⟩⟩

variable {isDigit : CodePoint → Bool}

/-- The characters with which a decimal integer may go on, as such or as another number. -/
def numberMarks : List CodePoint := Text.ofString "0123456789_lL.eEfFdDxXbB"

theorem not_oneOf (ends : d ∉ numberMarks) {s : String}
    (sub : ∀ c ∈ ofString s, c ∈ numberMarks) : oneOf s d = false := by
  rw [oneOf, Bool.eq_false_iff, ne_eq, contains_iff_mem]
  exact fun mem => ends (sub d mem)

theorem not_isDecimal (ends : d ∉ numberMarks) : Number.isDecimal d = false := by
  have digits : ∀ c ∈ ofString "0123456789", c ∈ numberMarks := by decide
  cases digit : Number.isDecimal d with
  | false => rfl
  | true => exact absurd (digits d (mem_digits digit)) ends

namespace Number

/-- What comes after a zero decides on the reader. -/
theorem read_zero (d : CodePoint) (rest : Text) : read ('0'.toNat :: d :: rest) =
      if oneOf "xX" d then hex ('0'.toNat :: d :: rest)
      else if oneOf "bB" d then plain ((digitsAt isBinary ('0'.toNat :: d :: rest) 2).map (.binaryInteger, ·))
      else if oneOf "01234567" d then
        plain ((digitsAt isOctal ('0'.toNat :: d :: rest) 1).map (.octalInteger, ·))
      else plain (decimal ('0'.toNat :: d :: rest)) := rfl

theorem read_nonzero (nonzero : c ≠ '0'.toNat) (rest : Text) : read (c :: rest) = plain (decimal (c :: rest)) := by
  rw [read, head?_cons, if_neg]
  exact fun same => nonzero (Option.some.inj (eq_of_beq same))

theorem lexeme?_of_digit (digit : isDecimal c = true) (rest : Text) :
    lexeme? c rest = some (read (c :: rest)) := by
  rw [lexeme?_of_unmarked (unmarked_of digit (by decide)), if_pos digit]

theorem lexeme?_of_point (digit : isDecimal d = true) (rest : Text) :
    lexeme? '.'.toNat (d :: rest) = some (plain (decimal ('.'.toNat :: d :: rest))) := by
  have digits : ∀ d ∈ ofString "0123456789", isDigit d = true ∧ d ≠ '.'.toNat := by decide
  obtain ⟨isDigit, noPoint⟩ := digits d (mem_digits digit)
  have noDots : (ofString "..").isPrefixOf ('.'.toNat :: d :: rest) = false := isPrefixOf_cons_ne noPoint _ rest
  rw [lexeme?, noDots, head?_cons, Option.any_some, isDigit]
  rfl

end Number

section

variable {digits mark : Text} {d : CodePoint} (decimal : IsDecimal digits) (isMark : mark ∈ integerMarks)
  (ends : d ∉ numberMarks) (text : Text)

include decimal isMark in
theorem IsDecimal.isGroup : Number.IsGroup Number.isDecimal (digits ++ mark) := by
  refine ⟨digits, mark, rfl, isMark, decimal.each, ?_⟩
  have last := decimal.last
  cases found : digits.getLast? with
  | none => rfl
  | some c =>
    rw [found] at last
    exact last

include decimal isMark ends in
theorem decimal_integer :
    Number.decimal (digits ++ mark ++ d :: text) = .ok (.decimalInteger, (digits ++ mark).length) := by
  have ended : Number.Ends Number.isDecimal (d :: text) := by
    rintro d ⟨⟩
    exact ⟨not_isDecimal ends, fun mem => ends ((by decide : ∀ c ∈ ofString "_lL", c ∈ numberMarks) d mem)⟩
  have point : oneOf ".eEfFdD" d = false := not_oneOf ends (by decide)
  rw [Number.decimal, Number.digits_group (by decide) (decimal.isGroup isMark) ended (by simp)]
  simp only [bind, Except.bind, Number.isAt_append, head?_cons, Option.any_some, point]
  rfl

include decimal isMark ends in
/-- What comes after a zero does not make it a number of another base. -/
theorem second_of_zero (zero : digits.head? = some '0'.toNat) :
    ∃ e more, digits ++ mark ++ d :: text = '0'.toNat :: e :: more ∧ oneOf "xX" e = false ∧
      oneOf "bB" e = false ∧ oneOf "01234567" e = false := by
  have octal := decimal.notOctal zero
  obtain ⟨digits, rfl⟩ := head?_eq_some_iff.1 zero
  cases digits with
  | cons e digits =>
    have either := decimal.each e (mem_cons_of_mem _ mem_cons_self)
    have digit : e ∈ ofString "0123456789_" := by
      rcases either with digit | rfl
      · exact mem_append_left (ofString "_") (mem_digits digit)
      · decide
    have others : ∀ e ∈ ofString "0123456789_",
        oneOf "xX" e = false ∧ oneOf "bB" e = false := by decide
    exact ⟨e, _, rfl, (others e digit).1, (others e digit).2, octal⟩
  | nil =>
    rcases mark_cases isMark with rfl | ⟨e, mem, rfl⟩
    · exact ⟨d, _, rfl, not_oneOf ends (by decide), not_oneOf ends (by decide), not_oneOf ends (by decide)⟩
    · have letters : ∀ c ∈ ofString "lL", oneOf "xX" c = false ∧ oneOf "bB" c = false ∧
          oneOf "01234567" c = false := by decide
      exact ⟨e, _, rfl, letters e mem⟩

include decimal isMark ends in
theorem read_integer :
    Number.read (digits ++ mark ++ d :: text) = .plain .decimalInteger (digits ++ mark).length := by
  have plain : Number.plain (Number.decimal (digits ++ mark ++ d :: text)) =
      .plain .decimalInteger (digits ++ mark).length := by
    rw [decimal_integer decimal isMark ends]
    rfl
  by_cases zero : digits.head? = some '0'.toNat
  · obtain ⟨e, more, whole, hex, binary, octal⟩ := second_of_zero decimal isMark ends text zero
    rw [whole] at plain ⊢
    rw [Number.read_zero, hex, binary, octal]
    exact plain
  · cases digits with
    | nil => cases decimal.first
    | cons c digits => exact (Number.read_nonzero (fun same => zero (congrArg some same)) _).trans plain

include decimal isMark ends in
/-- A decimal integer is read up to a character that cannot go on with it. -/
theorem tokenizes_integer (later : Tokenizes (d :: text) spellings) :
    Tokenizes (digits ++ mark ++ d :: text) ((.decimalInteger, digits ++ mark) :: spellings) := by
  have read := read_integer decimal isMark ends text
  cases digits with
  | nil => cases decimal.first
  | cons c digits =>
    have digit : Number.isDecimal c = true := decimal.first
    have slash : c ≠ '/'.toNat := ne_of_holds digit (by decide)
    refine tokenizes_lexeme (isDecimal_visible digit) (comment?_of_ne slash _) ?_ later
    rw [Number.lexeme?_of_digit digit]
    exact congrArg some read

end

/-! ## Operators -/

/-- What can be seen of an operator, or of the rest of one: it is read as `sign` first. -/
structure ReadsFirst (c : CodePoint) (word rest : Text) : Prop where
  visible : Text.isBlank c = false
  noLine : (Text.ofString "//").isPrefixOf (c :: word ++ rest) = false
  noBlock : (Text.ofString "/*").isPrefixOf (c :: word ++ rest) = false
  unmarked : c ∉ leadingMarks
  notDecimal : Number.isDecimal c = false
  notStart : Text.isIdentifierStart c = false
  longest : Vocabulary.leadingOperator? (c :: word ++ rest) = some (c :: word)

instance (c : CodePoint) (word rest : Text) : Decidable (ReadsFirst c word rest) :=
  decidable_of_iff (_ ∧ _ ∧ _ ∧ _ ∧ _ ∧ _ ∧ _)
    ⟨fun ⟨h₁, h₂, h₃, h₄, h₅, h₆, h₇⟩ => ⟨h₁, h₂, h₃, h₄, h₅, h₆, h₇⟩,
      fun h => ⟨h.visible, h.noLine, h.noBlock, h.unmarked, h.notDecimal, h.notStart, h.longest⟩⟩

/-- A character that is in no operator ends the search for operators. -/
theorem leadingOperator?_append {b : CodePoint} (apart : ∀ sign ∈ operators, b ∉ sign) (rest text : Text) :
    leadingOperator? (rest ++ b :: text) = leadingOperator? rest := by
  rw [leadingOperator?, leadingOperator?]
  generalize operators = signs at apart
  induction signs with
  | nil => rfl
  | cons sign signs ih =>
    obtain ⟨here, later⟩ := forall_mem_cons.1 apart
    rw [find?_cons, find?_cons, isPrefixOf_append here, ih later]

/-- The first sign of an operator is read where the operator ends at a blank. -/
theorem tokenizes_sign {rest : Text}
    (first : ReadsFirst c word rest) (later : Tokenizes (rest ++ ' '.toNat :: text) spellings) :
    Tokenizes (c :: word ++ (rest ++ ' '.toNat :: text)) ((.operator, c :: word) :: spellings) := by
  have uncommented : comment? (c :: word ++ rest ++ ' '.toNat :: text) = none := by
    rw [comment?, isPrefixOf_append (by decide), first.noLine, isPrefixOf_append (by decide), first.noBlock]
    rfl
  have apart : ∀ sign ∈ operators, ' '.toNat ∉ sign := by decide
  have longest := leadingOperator?_append apart (c :: word ++ rest) text
  rw [first.longest] at longest
  rw [append_assoc] at uncommented longest
  refine tokenizes_lexeme first.visible uncommented ?_ later
  rw [lexeme?_of_unmarked first.unmarked, if_neg (by simp [first.notDecimal]),
    if_neg (by simp [first.notStart]), operatorReading?, ← cons_append, longest]
  rfl

/-- Shifts to the right are read sign by sign, and every other operator as one sign. -/
def signsOf (operator : Text) : List Text :=
  if (Vocabulary.texts [">>", ">>>"]).contains operator then operator.map fun c => [c] else [operator]

/-- Signs that are read one after the other. -/
def ReadInOrder : List Text → Prop
  | [] => True
  | [] :: _ => False
  | (c :: word) :: signs => ReadsFirst c word signs.flatten ∧ ReadInOrder signs

instance decidableReadInOrder : (signs : List Text) → Decidable (ReadInOrder signs)
  | [] => .isTrue trivial
  | [] :: _ => .isFalse id
  | (_ :: _) :: signs => @instDecidableAnd _ _ _ (decidableReadInOrder signs)

theorem signsOf_readInOrder : ∀ operator ∈ infixOperators,
    (signsOf operator).flatten = operator ∧ ReadInOrder (signsOf operator) := by
  decide +kernel

theorem tokenizes_signs {signs : List Text}
    (order : ReadInOrder signs) (later : Tokenizes (' '.toNat :: text) spellings) :
    Tokenizes (signs.flatten ++ ' '.toNat :: text) (signs.map (TokenClass.operator, ·) ++ spellings) := by
  induction signs with
  | nil => exact later
  | cons sign signs ih =>
    cases sign with
    | nil => cases order
    | cons c word =>
      rw [flatten_cons, append_assoc]
      exact tokenizes_sign order.1 (ih order.2)

/-- A binary operator before a blank is read as its signs. -/
theorem tokenizes_operator {operator : Text}
    (known : operator ∈ infixOperators) (later : Tokenizes (' '.toNat :: text) spellings) :
    Tokenizes (operator ++ ' '.toNat :: text) ((signsOf operator).map (TokenClass.operator, ·) ++ spellings) := by
  obtain ⟨whole, order⟩ := signsOf_readInOrder operator known
  have read := tokenizes_signs order later
  rwa [whole] at read

/-! ## Texts without escapes -/

/-- What holds no backslash is copied. -/
theorem unescapeFrom_append {front : Text} (plain : ∀ c ∈ front, c ≠ '\\'.toNat) (copied : Text)
    (earlier : Option Int) (text : Text) : unescapeFrom copied earlier .plain (front ++ text) =
      unescapeFrom (front.reverse ++ copied) earlier .plain text := by
  induction front generalizing copied with
  | nil => rfl
  | cons c front ih =>
    obtain ⟨here, later⟩ := forall_mem_cons.1 plain
    rw [cons_append, unescapeFrom, if_neg fun same => here (eq_of_beq same), ih later, reverse_cons, append_assoc,
      singleton_append]

theorem unescapeFrom_plain (plain : ∀ c ∈ text, c ≠ '\\'.toNat) (copied : Text) :
    unescapeFrom copied none .plain text = { outcome := .ok (copied.reverse ++ text) } := by
  rw [← append_nil text, unescapeFrom_append plain, unescapeFrom, reverse_append, reverse_reverse, append_nil]

/-- A text without backslashes is read as it is. -/
theorem Tokenizes.tokenize (reads : Tokenizes text spellings) (plain : ∀ c ∈ text, c ≠ '\\'.toNat) :
    ∃ tokens, JavaSource.tokenize .strict (.text text) = { tokens } ∧
      tokens.map Token.spelling = spellings := by
  obtain ⟨tokens, scans, spelled⟩ := reads (Place.start text) rfl
  refine ⟨tokens, ?_, spelled⟩
  rw [JavaSource.tokenize, tokenizeText, unescape, unescapeFrom_plain plain, tokenizeUnescaped,
    reverse_nil, nil_append]
  dsimp only
  rw [scans.tokensFrom_eq]
  rfl

end Lexer

end JavaSource

import JavaSource.Proofs.Lexer.Spacing

/-!
# What may stand behind a token

A token that was read in one text is read again in another where the character right behind it leaves it alone:
`KeptBefore`. Blanks, brackets and at signs leave every token alone, a point every word that is no number, and behind
separators and at signs there may be nearly anything. `Attested.keptBefore_next` puts this together for two tokens side
by side, neither of them an operator and not both of them words: apart from a point beside a number or beside another
point, the first is read as before where the second follows without a blank.
-/

namespace JavaSource.Lexer

open List Text Vocabulary Number

/-! ## Which reader takes a lexeme -/

/-- What the reader that takes a lexeme tells about it. -/
inductive Taken (c : CodePoint) (rest : Text) (lexeme : Lexeme) : Prop where
  | operator : lexeme.cls = .operator → Taken c rest lexeme
  | atSign : c = '@'.toNat → lexeme = ⟨.atSign, 0⟩ → Taken c rest lexeme
  | number : lexeme.cls ∈ Number.classes → Taken c rest lexeme
  | separator : c ∈ Vocabulary.separators → lexeme = ⟨.separator, 0⟩ → Taken c rest lexeme
  | literal : (c == '\''.toNat || c == '"'.toNat) = true → lexeme.cls = .string →
    Quotation.read c rest = { outcome := .ok lexeme } → Taken c rest lexeme
  | word : Text.isIdentifierStart c = true → wordReading (c :: rest) = { outcome := .ok lexeme } → Taken c rest lexeme

variable {c : CodePoint} {lexeme : Lexeme}

theorem lexeme?_taken {rest : Text}
    (read : lexeme? c rest = some { outcome := .ok lexeme }) : Taken c rest lexeme := by
  generalize same : ({ outcome := .ok lexeme } : Reading) = reading at read
  have ok : reading.outcome = .ok lexeme := same ▸ rfl
  cases lexeme?_readBy read with
  | operator found =>
    obtain ⟨op, -, rfl⟩ := Option.map_eq_some_iff.1 found
    cases ok
    exact .operator rfl
  | atSign isSign =>
    cases ok
    exact .atSign isSign rfl
  | point isPoint => exact .number (decimal_isNumber (isPoint ▸ by decide) ok).cls
  | separator separator =>
    cases ok
    exact .separator separator rfl
  | quotation quote =>
    refine .literal quote ?_ same.symm
    unfold Quotation.read at ok
    split at ok <;> cases ok <;> rfl
  | digit digit =>
    exact .number (read_isNumber (mem_characters (isHex_of_isDecimal digit)) ok).cls
  | word start => exact .word start same.symm

theorem isWord_classOfWord (word : Text) : (classOfWord word).isWord = true := by
  unfold classOfWord
  repeat' split
  all_goals rfl

variable {text : Text}

theorem isWord_of_wordReading (read : wordReading text = { outcome := .ok lexeme }) :
    lexeme.cls.isWord = true := by
  obtain rfl := Except.ok.inj (congrArg Reading.outcome read)
  exact isWord_classOfWord _

theorem isWord_of_number {cls : TokenClass} (number : cls ∈ classes) : cls.isWord = true :=
  (by decide : ∀ cls ∈ classes, cls.isWord = true) cls number

/-- A separator other than the point is read as itself, whatever follows. -/
theorem lexeme?_of_separator (separator : c ∈ separators) (noPoint : c ≠ '.'.toNat)
    (rest : Text) : lexeme? c rest = some { outcome := .ok ⟨.separator, 0⟩ } := by
  have noSign : ∀ d ∈ separators, (d == '@'.toNat) = false := by decide
  have noDots : (ofString "..").isPrefixOf (c :: rest) = false := isPrefixOf_cons_ne noPoint _ rest
  simp only [lexeme?, noDots, Bool.false_and, Bool.false_eq_true, if_false, noSign c separator,
    beq_false_of_ne noPoint, if_pos (contains_iff_mem.2 separator)]
  rfl

theorem lexeme?_of_lone_point {d : CodePoint} (noPoint : d ≠ '.'.toNat) (noDigit : isDigit d = false)
    (rest : Text) : lexeme? '.'.toNat (d :: rest) = some { outcome := .ok ⟨.separator, 0⟩ } := by
  have noDots : (ofString "..").isPrefixOf ('.'.toNat :: d :: rest) = false := isPrefixOf_cons_ne noPoint [] rest
  simp only [lexeme?, noDots, Bool.false_and, Bool.false_eq_true, if_false, head?_cons, Option.any_some, noDigit,
    Bool.and_false]
  rfl

/-! ## Tokens that were read -/

/-- A token with this class and value was read somewhere. If it is a number, it does not end with an underscore. -/
inductive Attested : TokenClass × Text → Prop where
  | before {c : CodePoint} {word back : Text} {cls : TokenClass} : Text.isBlank c = false →
    comment? (c :: (word ++ back)) = none → lexeme? c (word ++ back) = some { outcome := .ok ⟨cls, word.length⟩ } →
    (∀ d ∈ back.head?, Text.isDigit d = true → Number.isDecimal d = true) →
    (cls ∈ Number.classes → (c :: word).getLast? ≠ some '_'.toNat) → Attested (cls, c :: word)

theorem Attested.exists_cons {token : TokenClass × Text} (attested : Attested token) :
    ∃ c word, token.2 = c :: word := by
  cases attested
  exact ⟨_, _, rfl⟩

/-- All tokens of a reading are attested. -/
theorem Reads.attested {pending : Option Text} {contents : List (TokenClass × Text × Option Text)}
    (reads : Reads pending text contents) (closed : NoOpenNumber contents) :
    ∀ content ∈ contents, Attested (content.1, content.2.1) := by
  induction reads with
  | done => simp
  | blank _ _ ih => exact ih closed
  | comment _ _ _ ih => exact ih closed
  | @lexeme pending c rest lexeme contents visible uncommented read later ih =>
    obtain ⟨cls, n⟩ := lexeme
    obtain ⟨word, back, rfl, rfl⟩ := exists_append_of_le (lexeme?_le_length read)
    rw [drop_left] at later
    rw [take_left] at closed ⊢
    rintro content mem
    rcases mem_cons.1 mem with rfl | mem
    · refine .before visible uncommented read (fun d head digit => ?_) (closed _ mem_cons_self)
      obtain ⟨rest, rfl⟩ := head?_eq_some_iff.1 head
      exact later.isDecimal_of_isDigit digit
    · exact ih (fun content mem => closed content (mem_cons_of_mem _ mem)) content mem

/-- The token is read where the text behind it starts with `b`. -/
def KeptBefore (b : CodePoint) (token : TokenClass × Text) : Prop :=
  ∀ more contents, Reads none (b :: more) contents →
    Reads none (token.2 ++ b :: more) ((token.1, token.2, none) :: contents)

variable {b : CodePoint}

theorem Foreign.notMem_comment (foreign : Foreign b) : b ∉ ofString "/*" := by
  intro mem
  have signs : ∀ c ∈ ofString "/*", [c] ∈ operators := by decide
  exact foreign.operator [b] (signs b mem) mem_cons_self

section

variable {b : CodePoint} {cls : TokenClass} {value : Text}

/-- A character that no lexeme goes on with leaves every token alone. -/
theorem Attested.keptBefore_of_foreign (attested : Attested (cls, value)) (foreign : Foreign b)
    (noDigit : isDigit b = false) : KeptBefore b (cls, value) := by
  obtain ⟨visible, uncommented, read, point, closed⟩ := attested
  rename_i c word back
  intro more contents later
  refine .lexeme_append visible (comment?_insert (a := c :: word) foreign.notMem_comment uncommented _) ?_ later
  refine lexeme?_insert foreign noDigit read (Nat.le_refl _) ?_ (fun _ _ => point) _
  rintro isNumber ⟨last, -⟩
  rw [cons_append, take_succ_cons, take_left] at last
  exact closed isNumber last

theorem Attested.keptBefore_of_blank (attested : Attested (cls, value)) (blank : isBlank b = true) :
    KeptBefore b (cls, value) :=
  attested.keptBefore_of_foreign (foreign_of_blank blank) (isDigit_of_blank blank)

/-- A point leaves words alone that are no numbers. -/
theorem Attested.keptBefore_point (attested : Attested (cls, value)) (word : cls.isWord = true)
    (noNumber : cls ∉ classes) : KeptBefore '.'.toNat (cls, value) := by
  obtain ⟨visible, uncommented, read, -, -⟩ := attested
  rename_i c letters back
  intro more contents later
  refine .lexeme_append visible (comment?_insert (a := c :: letters) (by decide) uncommented _) ?_ later
  cases lexeme?_taken read with
  | operator isOperator =>
    rw [show cls = .operator from isOperator] at word
    cases word
  | atSign _ same =>
    rw [show cls = .atSign from congrArg Lexeme.cls same] at word
    cases word
  | number number => exact absurd number noNumber
  | separator _ same =>
    rw [show cls = .separator from congrArg Lexeme.cls same] at word
    cases word
  | literal quote _ read =>
    rw [lexeme?_of_quote quote]
    exact congrArg some (quotation_insert read (Nat.le_refl _) _)
  | word start read =>
    have unmarked : c ∉ leadingMarks := unmarked_of start (by decide)
    have length : ((c :: letters ++ back).takeWhile isIdentifierPart).length ≤ (c :: letters).length := by
      have same := congrArg Lexeme.further (Except.ok.inj (congrArg Reading.outcome read))
      replace same : ((c :: letters ++ back).takeWhile isIdentifierPart).length - 1 = letters.length := same
      rw [length_cons]
      omega
    rw [lexeme?_of_unmarked unmarked, if_neg (by simp [not_isDecimal_of_start start]), if_pos start, wordReading,
      ← cons_append, takeWhile_insert (by decide) length]
    exact congrArg some read

/-- Behind a separator there may be anything, unless it is a point: behind that no point and no digit. -/
theorem keptBefore_separator (separator : c ∈ separators)
    (point : c = '.'.toNat → b ≠ '.'.toNat ∧ isDigit b = false) : KeptBefore b (.separator, [c]) := by
  have visible : ∀ d ∈ separators, isBlank d = false := by decide
  have noSlash : ∀ d ∈ separators, d ≠ '/'.toNat := by decide
  intro more contents later
  have read : lexeme? c (b :: more) = some { outcome := .ok ⟨.separator, 0⟩ } := by
    by_cases isPoint : c = '.'.toNat
    · obtain ⟨noPoint, noDigit⟩ := point isPoint
      subst isPoint
      exact lexeme?_of_lone_point noPoint noDigit more
    · exact lexeme?_of_separator separator isPoint _
  have reads : Reads none (c :: ([] ++ b :: more)) _ :=
    .lexeme_append (visible c separator) (comment?_of_ne (noSlash c separator) _) read later
  exact reads

theorem keptBefore_atSign (b : CodePoint) : KeptBefore b (.atSign, ofString "@") := by
  intro more contents later
  have reads : Reads none ('@'.toNat :: ([] ++ b :: more)) _ :=
    .lexeme_append (by decide) (comment?_of_ne (by decide) _) rfl later
  exact reads

end

/-! ## Tokens side by side -/

def point : TokenClass × Text := (.separator, ".")

/-- Of two neighbours, none is a point beside a number, and not both are points. -/
structure PointsApart (first second : TokenClass × Text) : Prop where
  behind : first = point → second.1 ∉ Number.classes ∧ second ≠ point
  ahead : second = point → first.1 ∉ Number.classes

instance (first second : TokenClass × Text) : Decidable (PointsApart first second) :=
  decidable_of_iff (_ ∧ _) ⟨fun ⟨h₁, h₂⟩ => ⟨h₁, h₂⟩, fun h => ⟨h.behind, h.ahead⟩⟩

section

variable {first second : TokenClass × Text}

/-- What a token starts with that is no operator, no number and no point. -/
theorem Attested.start_ne_point (attested : Attested second) (noOperator : second.1 ≠ .operator)
    (noNumber : second.1 ∉ classes) (noPoint : second ≠ point) :
    ∀ b ∈ second.2.head?, b ≠ '.'.toNat ∧ isDigit b = false := by
  obtain ⟨-, -, read, -, -⟩ := attested
  rename_i c word back cls
  rintro _ ⟨⟩
  cases lexeme?_taken read with
  | operator isOperator => exact absurd isOperator noOperator
  | atSign here =>
    rw [here]
    exact ⟨by decide, by decide⟩
  | number number => exact absurd number noNumber
  | separator separator same =>
    have noDigits : ∀ d ∈ separators, isDigit d = false := by decide
    refine ⟨?_, noDigits c separator⟩
    rintro rfl
    obtain ⟨rfl, length⟩ := Lexeme.mk.inj same
    rw [length_eq_zero_iff.1 length] at noPoint
    exact noPoint rfl
  | literal quote =>
    rcases Bool.or_eq_true_iff.1 quote with single | double
    · rw [eq_of_beq single]
      exact ⟨by decide, by decide⟩
    · rw [eq_of_beq double]
      exact ⟨by decide, by decide⟩
  | word start =>
    refine ⟨ne_of_holds start (by decide), Bool.eq_false_iff.2 fun digit => ?_⟩
    exact Bool.eq_false_iff.1 (not_isIdentifierStart_of_isDigit digit) start

/-- What a token starts with that is neither a word nor an operator. -/
theorem Attested.start_of_sign (attested : Attested second) (noOperator : second.1 ≠ .operator)
    (noWord : second.1.isWord = false) :
    ∀ b ∈ second.2.head?, Foreign b ∧ isDigit b = false ∨ b = '.'.toNat ∧ second = point := by
  have signs : ∀ d ∈ '@'.toNat :: separators, d ≠ '.'.toNat → Foreign d ∧ isDigit d = false := by
    intro d mem noPoint
    refine ⟨⟨?_, ?_, ?_⟩, ?_⟩
    · exact (by decide : ∀ d ∈ '@'.toNat :: separators, d ≠ '.'.toNat → d ∉ characters) d mem noPoint
    · exact (by decide : ∀ d ∈ '@'.toNat :: separators, d ≠ '.'.toNat →
        ∀ op ∈ operators, d ∉ op) d mem noPoint
    · exact (by decide : ∀ d ∈ '@'.toNat :: separators, isIdentifierPart d = false) d mem
    · exact (by decide : ∀ d ∈ '@'.toNat :: separators, isDigit d = false) d mem
  obtain ⟨-, -, read, -, -⟩ := attested
  rename_i c word back cls
  rintro _ ⟨⟩
  cases lexeme?_taken read with
  | operator isOperator => exact absurd isOperator noOperator
  | atSign here => exact .inl (signs c (here ▸ mem_cons_self) (here ▸ by decide))
  | number number => cases noWord.symm.trans (isWord_of_number number)
  | separator separator same =>
    by_cases isPoint : c = '.'.toNat
    · obtain ⟨rfl, length⟩ := Lexeme.mk.inj same
      rw [length_eq_zero_iff.1 length, isPoint]
      exact .inr ⟨rfl, rfl⟩
    · exact .inl (signs c (mem_cons_of_mem _ separator) isPoint)
  | literal _ isString =>
    rw [show cls = .string from isString] at noWord
    cases noWord
  | word _ read => cases noWord.symm.trans (isWord_of_wordReading read)

/-- **Two tokens side by side.** The first is read as before where the second follows it without a blank, if neither is
an operator, not both are words, and no point is in the way. -/
theorem Attested.keptBefore_next (isFirst : Attested first) (isSecond : Attested second)
    (apart : PointsApart first second) (noOperator : first.1 ≠ .operator ∧ second.1 ≠ .operator)
    (words : first.1.isWord = true → second.1.isWord = false) (starts : second.2.head? = some b) :
    KeptBefore b first := by
  cases isWord : first.1.isWord with
  | true =>
    rcases isSecond.start_of_sign noOperator.2 (words isWord) b starts with ⟨foreign, noDigit⟩ | ⟨rfl, isPoint⟩
    · exact isFirst.keptBefore_of_foreign foreign noDigit
    · exact isFirst.keptBefore_point isWord (apart.ahead isPoint)
  | false =>
    obtain ⟨-, -, read, -, -⟩ := isFirst
    rename_i c word back cls
    cases lexeme?_taken read with
    | operator isOperator => exact absurd isOperator noOperator.1
    | atSign here same =>
      obtain ⟨rfl, length⟩ := Lexeme.mk.inj same
      rw [length_eq_zero_iff.1 length, here]
      exact keptBefore_atSign b
    | number number => cases isWord.symm.trans (isWord_of_number number)
    | separator separator same =>
      obtain ⟨rfl, length⟩ := Lexeme.mk.inj same
      rw [length_eq_zero_iff.1 length] at apart ⊢
      refine keptBefore_separator separator ?_
      rintro rfl
      obtain ⟨noNumber, noPoint⟩ := apart.behind rfl
      exact isSecond.start_ne_point noOperator.2 noNumber noPoint b starts
    | literal _ isString =>
      rw [show cls = .string from isString] at isWord
      cases isWord
    | word _ read => cases isWord.symm.trans (isWord_of_wordReading read)

end

end JavaSource.Lexer

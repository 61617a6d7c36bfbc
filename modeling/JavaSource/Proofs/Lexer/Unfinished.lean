import JavaSource.Proofs.Lexer.Numbers

/-!
# Numbers that are cut off

The readers of numbers look at the character behind what they have read, and where the text ends there they meet a
fault. `CutDecimal` and `CutHex` list what a number is cut off behind, and `Unfinished` the texts that end in such a
number. No other reader meets a fault: `lexeme?_error_iff` says that a lexeme cannot be read exactly where the text is
unfinished.
-/

namespace JavaSource.Lexer

open List Text

variable {group : Text}

namespace Number

/-! ## The end of the text in front of digits -/

/-- Nothing, or the sign of an exponent without its digits. -/
def openSigns : List Text := Vocabulary.texts ["", "+", "-"]

/-- One of the marks of an exponent, and no digits behind it. -/
def OpensExponent (marks : String) (text : Text) : Prop :=
  ∃ c rest, text = c :: rest ∧ Text.oneOf marks c = true ∧ rest ∈ openSigns

variable {isDigit : CodePoint → Bool} {text : Text} {n : Nat} {f : Fault}

theorem digits_error_iff : digits isDigit text = .error f ↔ f = .numberAtEnd ∧ text = [] := by
  cases text with
  | nil => simp [digits, eq_comm]
  | cons c rest => simp [digits]

theorem map_error_iff {α β : Type} {read : Except Fault α} {g : α → β} : read.map g = .error f ↔ read = .error f := by
  cases read <;> simp [Except.map]

theorem digitsAt_error_iff : digitsAt isDigit text n = .error f ↔ f = .numberAtEnd ∧ text.drop n = [] := by
  rw [digitsAt, map_error_iff, digits_error_iff]

/-- The digits of an exponent are missing. -/
theorem signed_error_iff : digitsAt isDecimal text (optional text n "-+") = .error f ↔
      f = .numberAtEnd ∧ text.drop n ∈ openSigns := by
  rw [digitsAt_error_iff, optional]
  refine and_congr_right fun _ => ?_
  cases sign : isAt text n "-+" with
  | true =>
    obtain ⟨c, isSign, dropped⟩ := drop_of_isAt sign
    have signs : ∀ c ∈ ofString "-+", ∀ rest, c :: rest ∈ openSigns ↔ rest = [] := by
      simp [openSigns, Vocabulary.texts, ofString]
    rw [if_pos rfl, dropped, signs c (contains_iff_mem.1 isSign)]
  | false =>
    rw [if_neg Bool.false_ne_true]
    constructor
    · intro ended
      rw [ended]
      decide
    · intro isOpen
      have others : ∀ tail ∈ openSigns, tail.head?.any (oneOf "-+") = false → tail = [] := by decide
      exact others _ isOpen (isAt_eq_drop text n "-+" ▸ sign)

variable {marks s : String} {tail : Text} {b : Bool}

theorem exponent_error_iff (here : isAt text n marks = true) :
    digitsAt isDecimal text (optional text (n + 1) "-+") = .error f ↔
      f = .numberAtEnd ∧ OpensExponent marks (text.drop n) := by
  obtain ⟨c, isMark, dropped⟩ := drop_of_isAt here
  rw [signed_error_iff, dropped]
  refine and_congr_right fun _ => ⟨fun isOpen => ⟨c, _, rfl, isMark, isOpen⟩, ?_⟩
  rintro ⟨d, rest, same, -, isOpen⟩
  injection same with _ same
  exact same ▸ isOpen

theorem not_opensExponent (elsewhere : isAt text n marks = false) : ¬ OpensExponent marks (text.drop n) := by
  rintro ⟨c, rest, dropped, isMark, -⟩
  rw [isAt_eq_drop, dropped] at elsewhere
  exact Bool.false_ne_true (elsewhere.symm.trans isMark)

theorem digits_then_iff {P : Text → Prop} (apart : Apart isDigit) (stops : ∀ {tail}, P tail → Ends isDigit tail) :
    (∃ n, digits isDigit text = .ok n ∧ P (text.drop n)) ↔
      text ≠ [] ∧ ∃ group tail, text = group ++ tail ∧ IsGroup isDigit group ∧ P tail := by
  constructor
  · rintro ⟨n, taken, behind⟩
    have nonempty : text ≠ [] := by
      rintro rfl
      cases taken
    obtain ⟨group, tail, rfl, rfl, either⟩ := digits_split taken
    rw [drop_left] at behind
    refine ⟨nonempty, group, tail, rfl, either.resolve_right fun ⟨_, goesOn⟩ => ?_, behind⟩
    obtain ⟨c, here, isMark⟩ := (Option.any_eq_true _ _).1 goesOn
    exact (stops behind c here).2 (contains_iff_mem.1 isMark)
  · rintro ⟨nonempty, group, tail, rfl, isGroup, behind⟩
    refine ⟨_, digits_group apart isGroup (stops behind) nonempty, ?_⟩
    rwa [drop_left]

/-- Digits are read up to what must stand behind them: they are a group, and no group goes on there. -/
theorem digitsAt_then_iff {P : Text → Prop} (apart : Apart isDigit) (stops : ∀ {tail}, P tail → Ends isDigit tail) :
    (∃ m, digitsAt isDigit text n = .ok m ∧ P (text.drop m)) ↔
      text.drop n ≠ [] ∧ ∃ group tail, text.drop n = group ++ tail ∧ IsGroup isDigit group ∧ P tail := by
  rw [← digits_then_iff apart stops, digitsAt]
  cases digits isDigit (text.drop n) with
  | error f => simp [Except.map]
  | ok k => simp [Except.map, drop_drop]

theorem drop_of_point (point : isAt text n "." = true) : text.drop n = '.'.toNat :: text.drop (n + 1) := by
  obtain ⟨c, isPoint, dropped⟩ := drop_of_isAt point
  obtain rfl : c = '.'.toNat := mem_singleton.1 (contains_iff_mem.1 isPoint)
  exact dropped

theorem fraction_then_iff {P : Text → Prop} (apart : Apart isDigit) (stops : ∀ {tail}, P tail → Ends isDigit tail) :
    (∃ m, fraction isDigit text n = .ok m ∧ P (text.drop m)) ↔
      isAt text n "." = false ∧ P (text.drop n) ∨
      ∃ frac tail, text.drop n = '.'.toNat :: frac ++ tail ∧ IsGroup isDigit frac ∧ P tail ∧ frac ++ tail ≠ [] := by
  unfold fraction
  cases point : isAt text n "." with
  | false =>
    constructor
    · rintro ⟨m, ⟨⟩, behind⟩
      exact .inl ⟨rfl, behind⟩
    · rintro (⟨-, behind⟩ | ⟨frac, tail, dropped, -⟩)
      · exact ⟨n, rfl, behind⟩
      · rw [isAt_eq_drop, dropped] at point
        cases point
  | true =>
    rw [if_pos rfl, digitsAt_then_iff apart stops, drop_of_point point]
    constructor
    · rintro ⟨nonempty, frac, tail, split, isGroup, behind⟩
      exact .inr ⟨frac, tail, congrArg _ split, isGroup, behind, split ▸ nonempty⟩
    · rintro (⟨⟨⟩, -⟩ | ⟨frac, tail, split, isGroup, behind, nonempty⟩)
      injection split with _ split
      exact ⟨split ▸ nonempty, frac, tail, split, isGroup, behind⟩

theorem fraction_error_iff :
    fraction isDigit text n = .error f ↔ f = .numberAtEnd ∧ text.drop n = ofString "." := by
  unfold fraction
  split
  · rename_i point
    rw [digitsAt_error_iff, drop_of_point point]
    simp [ofString]
  · rename_i noPoint
    refine iff_of_false (by simp) ?_
    rintro ⟨-, dropped⟩
    rw [isAt_eq_drop, dropped] at noPoint
    exact noPoint rfl

/-! ## Decimal numbers -/

/-- What a decimal number is cut off behind, after its whole part. -/
inductive CutDecimal : Text → Prop where
  | point : CutDecimal (ofString ".")
  | exponent {tail : Text} : OpensExponent "eE" tail → CutDecimal tail
  | fraction {frac tail : Text} : IsGroup isDecimal frac → OpensExponent "eE" tail →
    CutDecimal ('.'.toNat :: frac ++ tail)

theorem ends_of_head (head : tail.head?.all (oneOf s) = true)
    (apart : ∀ c ∈ ofString s, isDigit c = false ∧ c ∉ ofString "_lL") : Ends isDigit tail := by
  intro c mem
  rw [Option.mem_def.1 mem] at head
  exact apart c (contains_iff_mem.1 head)

theorem OpensExponent.ends (isOpen : OpensExponent "eE" tail) : Ends isDecimal tail := by
  obtain ⟨c, rest, rfl, isMark, -⟩ := isOpen
  exact @ends_of_head _ "eE" _ isMark (by decide)

theorem OpensExponent.ne_nil (isOpen : OpensExponent marks tail) : tail ≠ [] := by
  obtain ⟨c, rest, rfl, -⟩ := isOpen
  exact cons_ne_nil c rest

/-- Where an exponent is open, no other mark stands. -/
theorem OpensExponent.isAt (isOpen : OpensExponent marks (text.drop n))
    (sub : ∀ c ∈ ofString marks, oneOf s c = b) : isAt text n s = b := by
  obtain ⟨c, rest, dropped, isMark, -⟩ := isOpen
  rw [isAt_eq_drop, dropped]
  exact sub c (contains_iff_mem.1 isMark)

theorem CutDecimal.head (cut : CutDecimal tail) : ∃ c rest, tail = c :: rest ∧ c ∈ ofString ".eE" := by
  have marks : ∀ c ∈ ofString "eE", c ∈ ofString ".eE" := by decide
  cases cut with
  | point => exact ⟨_, _, rfl, by decide⟩
  | exponent isOpen =>
    obtain ⟨c, rest, rfl, isMark, -⟩ := isOpen
    exact ⟨c, rest, rfl, marks c (contains_iff_mem.1 isMark)⟩
  | fraction _ _ => exact ⟨_, _, rfl, by decide⟩

theorem CutDecimal.ends (cut : CutDecimal tail) : Ends isDecimal tail := by
  obtain ⟨c, rest, rfl, among⟩ := cut.head
  exact @ends_of_head _ ".eE" _ (contains_iff_mem.2 among) (by decide)

theorem bind_error_iff {α β : Type} {read : Except Fault α} {g : α → Except Fault β} :
    read.bind g = .error f ↔ read = .error f ∨ ∃ x, read = .ok x ∧ g x = .error f := by
  cases read <;> simp [Except.bind]

theorem exponentEnd_error_iff :
    exponentEnd text n = .error f ↔ f = .numberAtEnd ∧ OpensExponent "eE" (text.drop n) := by
  unfold exponentEnd
  split
  · rename_i mark
    exact exponent_error_iff mark
  · rename_i noMark
    exact iff_of_false (by simp) fun cut => not_opensExponent (Bool.eq_false_iff.2 noMark) cut.2

/-- The text behind the whole part decides whether a decimal number is cut off. -/
theorem decimal_error_of_digits (whole : digits isDecimal text = .ok n) :
    decimal text = .error f ↔ f = .numberAtEnd ∧ CutDecimal (text.drop n) := by
  rw [decimal_eq, whole, Except.bind]
  cases goesOn : isAt text n ".eEfFdD" with
  | false =>
    refine iff_of_false (by simp) fun ⟨_, cut⟩ => ?_
    have marks : ∀ c ∈ ofString ".eE", oneOf ".eEfFdD" c = true := by decide
    obtain ⟨c, rest, dropped, among⟩ := cut.head
    rw [isAt_eq_drop, dropped] at goesOn
    exact Bool.false_ne_true (goesOn.symm.trans (marks c among))
  | true =>
    have behind := @fraction_then_iff isDecimal text n (OpensExponent "eE") (by decide) OpensExponent.ends
    simp only [if_true, bind_error_iff, map_error_iff, fraction_error_iff, exponentEnd_error_iff]
    constructor
    · rintro (⟨rfl, point⟩ | ⟨m, frac, rfl, isOpen⟩)
      · exact ⟨rfl, point ▸ .point⟩
      · rcases behind.1 ⟨m, frac, isOpen⟩ with ⟨-, isOpen⟩ | ⟨frac, tail, split, isGroup, isOpen, -⟩
        · exact ⟨rfl, .exponent isOpen⟩
        · exact ⟨rfl, split ▸ .fraction isGroup isOpen⟩
    · rintro ⟨rfl, cut⟩
      generalize dropped : text.drop n = tail at cut
      cases cut with
      | point => exact .inl ⟨rfl, rfl⟩
      | exponent isOpen =>
        rw [← dropped] at isOpen
        obtain ⟨m, frac, isOpen⟩ := behind.2 (.inl ⟨isOpen.isAt (by decide), isOpen⟩)
        exact .inr ⟨m, frac, rfl, isOpen⟩
      | fraction isGroup isOpen =>
        obtain ⟨m, frac, isOpen⟩ := behind.2 (.inr ⟨_, _, dropped, isGroup, isOpen, by simp [isOpen.ne_nil]⟩)
        exact .inr ⟨m, frac, rfl, isOpen⟩

/-- **A decimal number is cut off** exactly if the text ends behind its whole part and what `CutDecimal` lists. -/
theorem decimal_error_iff (nonempty : text ≠ []) : decimal text = .error f ↔
      f = .numberAtEnd ∧ ∃ whole tail, text = whole ++ tail ∧ IsGroup isDecimal whole ∧ CutDecimal tail := by
  have behind := @digits_then_iff _ text CutDecimal (by decide) CutDecimal.ends
  cases taken : digits isDecimal text with
  | error g => exact absurd (digits_error_iff.1 taken).2 nonempty
  | ok n =>
    simp only [taken, Except.ok.injEq, exists_eq_left', ne_eq, nonempty, not_false_eq_true, true_and] at behind
    rw [decimal_error_of_digits taken, behind]

/-! ## Hexadecimal numbers -/

/-- What a hexadecimal number is cut off behind, after its fraction. Without the mark of an exponent a complaint is
due there. -/
def CutMantissa (f : Fault) (tail : Text) : Prop :=
  f = .numberAtEnd ∧ (OpensExponent "pP" tail ∨ tail ≠ [] ∧ tail ∈ openSigns) ∨
    f = .complaintPastEnd ∧ tail = []

/-- What a hexadecimal number is cut off behind, after the mark of its base. -/
inductive CutHex : Fault → Text → Prop where
  | nothing : CutHex .numberAtEnd []
  | point {whole : Text} : IsGroup isHex whole → CutHex .numberAtEnd (whole ++ ofString ".")
  | exponent {whole tail : Text} : IsGroup isHex whole → OpensExponent "pP" tail →
    CutHex .numberAtEnd (whole ++ tail)
  | fraction {whole frac tail : Text} {f : Fault} : IsGroup isHex whole → IsGroup isHex frac →
    CutMantissa f tail → frac ++ tail ≠ [] → CutHex f (whole ++ ('.'.toNat :: frac ++ tail))

theorem CutMantissa.head (cut : CutMantissa f tail) : tail.head?.all (oneOf "pP+-") = true := by
  rcases cut with ⟨-, isOpen | ⟨-, isSign⟩⟩ | ⟨-, rfl⟩
  · obtain ⟨c, rest, rfl, isMark, -⟩ := isOpen
    have marks : ∀ c ∈ ofString "pP", oneOf "pP+-" c = true := by decide
    exact marks c (contains_iff_mem.1 isMark)
  · have signs : ∀ tail ∈ openSigns, tail.head?.all (oneOf "pP+-") = true := by decide
    exact signs tail isSign
  · rfl

theorem CutMantissa.ends (cut : CutMantissa f tail) : Ends isHex tail := ends_of_head cut.head (by decide)

theorem hexExponent_error_iff : (hexExponent text n).outcome = .error f ↔ CutMantissa f (text.drop n) := by
  unfold hexExponent
  split
  · rename_i mark
    rw [map_error_iff, exponentValue, map_error_iff, exponent_error_iff mark]
    obtain ⟨c, isMark, dropped⟩ := drop_of_isAt mark
    have noSign : text.drop n ∉ openSigns := by
      have others : ∀ tail ∈ openSigns, tail.head?.any (oneOf "pP") = false := by decide
      intro isSign
      exact Bool.false_ne_true ((others _ isSign).symm.trans (isAt_eq_drop text n "pP" ▸ mark))
    rw [dropped] at noSign ⊢
    simp [CutMantissa, noSign]
  · rename_i noMark
    have noOpen := not_opensExponent (Bool.eq_false_iff.2 noMark)
    cases here : text[n]? with
    | none =>
      have ended : text.drop n = [] := drop_eq_nil_of_le (getElem?_eq_none_iff.1 here)
      rw [ended] at noOpen ⊢
      simp [CutMantissa, noOpen, eq_comm]
    | some c =>
      have goesOn : text.drop n ≠ [] := by
        intro ended
        rw [← head?_drop, ended] at here
        cases here
      show (exponentValue text n).map _ = _ ↔ _
      rw [map_error_iff, exponentValue, map_error_iff, signed_error_iff]
      simp [CutMantissa, noOpen, goesOn]

/-- What a hexadecimal number is cut off behind, after its whole part. -/
def CutWhole (f : Fault) (tail : Text) : Prop :=
  f = .numberAtEnd ∧ (tail = ofString "." ∨ OpensExponent "pP" tail) ∨
    ∃ frac tail', tail = '.'.toNat :: frac ++ tail' ∧ IsGroup isHex frac ∧ CutMantissa f tail' ∧ frac ++ tail' ≠ []

theorem CutWhole.head (cut : CutWhole f tail) : ∃ c rest, tail = c :: rest ∧ c ∈ ofString ".pP" := by
  have marks : ∀ c ∈ ofString "pP", c ∈ ofString ".pP" := by decide
  rcases cut with ⟨-, rfl | ⟨c, rest, rfl, isMark, -⟩⟩ | ⟨frac, tail', rfl, -⟩
  · exact ⟨_, _, rfl, by decide⟩
  · exact ⟨c, rest, rfl, marks c (contains_iff_mem.1 isMark)⟩
  · exact ⟨_, _, rfl, by decide⟩

theorem CutWhole.ends (cut : CutWhole f tail) : Ends isHex tail := by
  obtain ⟨c, rest, rfl, among⟩ := cut.head
  exact @ends_of_head _ ".pP" _ (contains_iff_mem.2 among) (by decide)

theorem cutHex_iff : CutHex f text ↔ f = .numberAtEnd ∧ text = [] ∨
      ∃ whole tail, text = whole ++ tail ∧ IsGroup isHex whole ∧ CutWhole f tail := by
  constructor
  · intro cut
    cases cut with
    | nothing => exact .inl ⟨rfl, rfl⟩
    | point isGroup => exact .inr ⟨_, _, rfl, isGroup, .inl ⟨rfl, .inl rfl⟩⟩
    | exponent isGroup isOpen => exact .inr ⟨_, _, rfl, isGroup, .inl ⟨rfl, .inr isOpen⟩⟩
    | fraction isGroup isFrac cut nonempty =>
      exact .inr ⟨_, _, rfl, isGroup, .inr ⟨_, _, rfl, isFrac, cut, nonempty⟩⟩
  · rintro (⟨rfl, rfl⟩ | ⟨whole, tail, rfl, isGroup, ⟨rfl, rfl | isOpen⟩ | ⟨frac, tail', rfl, isFrac, cut, nonempty⟩⟩)
    · exact .nothing
    · exact .point isGroup
    · exact .exponent isGroup isOpen
    · exact .fraction isGroup isFrac cut nonempty

/-- The text behind the whole part decides whether a hexadecimal number is cut off. -/
theorem hex_error_of_digits (whole : digitsAt isHex text 2 = .ok n) :
    (hex text).outcome = .error f ↔ CutWhole f (text.drop n) := by
  simp only [hex, whole]
  cases goesOn : isAt text n ".pP" with
  | false =>
    refine iff_of_false (by simp [Reading.plain]) fun cut => ?_
    obtain ⟨c, rest, dropped, among⟩ := cut.head
    rw [isAt_eq_drop, dropped] at goesOn
    exact Bool.false_ne_true (goesOn.symm.trans (contains_iff_mem.2 among))
  | true =>
    have behind := @fraction_then_iff _ text n (CutMantissa f) (by decide) CutMantissa.ends
    cases frac : fraction isHex text n with
    | error g =>
      obtain ⟨rfl, dropped⟩ := fraction_error_iff.1 frac
      rw [dropped]
      constructor
      · rintro ⟨⟩
        exact .inl ⟨rfl, .inl rfl⟩
      · rintro (⟨rfl, -⟩ | ⟨frac, tail, same, -, -, nonempty⟩)
        · rfl
        · injection same with _ same
          exact absurd same.symm nonempty
    | ok m =>
      simp only [frac, Except.ok.injEq, exists_eq_left'] at behind
      show (hexExponent text m).outcome = _ ↔ _
      rw [hexExponent_error_iff, behind]
      refine or_congr_left ⟨fun ⟨_, cut⟩ => ?_, ?_⟩
      · have others : ∀ tail ∈ openSigns, tail.head?.any (oneOf ".pP") = false := by decide
        rw [isAt_eq_drop] at goesOn
        rcases cut with ⟨rfl, isOpen | ⟨-, isSign⟩⟩ | ⟨-, ended⟩
        · exact ⟨rfl, .inr isOpen⟩
        · cases (others _ isSign).symm.trans goesOn
        · cases (others [] (by decide)).symm.trans (ended ▸ goesOn)
      · rintro ⟨rfl, point | isOpen⟩
        · cases frac.symm.trans (fraction_error_iff.2 ⟨rfl, point⟩)
        · exact ⟨isOpen.isAt (by decide), .inl ⟨rfl, .inl isOpen⟩⟩

/-- **A hexadecimal number is cut off** exactly if the text ends behind what `CutHex` lists. -/
theorem hex_error_iff : (hex text).outcome = .error f ↔ CutHex f (text.drop 2) := by
  have behind := @digitsAt_then_iff _ text 2 (CutWhole f) (by decide) CutWhole.ends
  rw [cutHex_iff]
  cases taken : digitsAt isHex text 2 with
  | error g =>
    obtain ⟨rfl, ended⟩ := digitsAt_error_iff.1 taken
    rw [hex, taken, ended]
    constructor
    · rintro ⟨⟩
      exact .inl ⟨rfl, rfl⟩
    · rintro (⟨rfl, -⟩ | ⟨whole, tail, split, -, cut⟩)
      · rfl
      · obtain ⟨c, rest, rfl, -⟩ := cut.head
        simp at split
  | ok n =>
    simp only [taken, Except.ok.injEq, exists_eq_left'] at behind
    have nonempty : text.drop 2 ≠ [] := fun ended => by cases taken.symm.trans (digitsAt_error_iff.2 ⟨rfl, ended⟩)
    rw [hex_error_of_digits taken, behind]
    simp [nonempty]

end Number

/-! ## Lexemes -/

open Number

/-- A decimal number starts here: a digit, and no octal digit behind a zero, or a point before a digit. -/
def StartsDecimal (text : Text) : Prop :=
  text.head?.any isDecimal = true ∧ (text.head? = some '0'.toNat → isAt text 1 "01234567" = false) ∨
    text.head? = some '.'.toNat ∧ text[1]?.any isDecimal = true

/-- The texts in which a number is cut off by the end of the text, with the fault that its reader meets there. -/
inductive Unfinished : Fault → Text → Prop where
  | zero : Unfinished .numberAtEnd (ofString "0")
  | binary {b : CodePoint} : Text.oneOf "bB" b = true → Unfinished .numberAtEnd ['0'.toNat, b]
  | hex {x : CodePoint} {tail : Text} {f : Fault} : Text.oneOf "xX" x = true → CutHex f tail →
    Unfinished f ('0'.toNat :: x :: tail)
  | decimal {whole tail : Text} : IsGroup isDecimal whole → CutDecimal tail → StartsDecimal (whole ++ tail) →
    Unfinished .numberAtEnd (whole ++ tail)

theorem mem_of_isGroup (isGroup : IsGroup isDecimal group) :
    ∀ c ∈ group, c ∈ ofString "0123456789_lL" := by
  obtain ⟨run, mark, rfl, isMark, each, -⟩ := isGroup
  intro c mem
  rcases mem_append.1 mem with mem | mem
  · rcases each c mem with digit | rfl
    · exact mem_append_left (ofString "_lL") (mem_digits digit)
    · decide
  · have marks : ∀ mark ∈ integerMarks, ∀ c ∈ mark, c ∈ ofString "0123456789_lL" := by decide
    exact marks mark isMark c mem

section

variable {c : CodePoint} {rest : Text} {f : Fault}

/-- The second character of a decimal number that is cut off, where the first is a digit. -/
theorem second_of_cut (digit : isDecimal c = true) (failed : decimal (c :: rest) = .error f) :
    ∃ d rest', rest = d :: rest' ∧ d ∈ ofString "0123456789_lL.eE" := by
  have groupMarks : ∀ d ∈ ofString "0123456789_lL", d ∈ ofString "0123456789_lL.eE" := by decide
  have cutMarks : ∀ d ∈ ofString ".eE", d ∈ ofString "0123456789_lL.eE" ∧ isDecimal d = false := by decide
  obtain ⟨-, whole, tail, starts, isGroup, cut⟩ := (decimal_error_iff (cons_ne_nil c rest)).1 failed
  obtain ⟨e, rest', rfl, isMark⟩ := cut.head
  cases whole with
  | nil =>
    injection starts with same _
    rw [same, (cutMarks e isMark).2] at digit
    cases digit
  | cons a whole =>
    injection starts with _ same
    cases whole with
    | nil => exact ⟨e, rest', same, (cutMarks e isMark).1⟩
    | cons d whole => exact ⟨d, _, same, groupMarks d (mem_of_isGroup isGroup d (by simp))⟩

theorem plain_error_iff {number : Except Fault (TokenClass × Nat)} :
    (Number.plain number).outcome = .error f ↔ number = .error f := map_error_iff

theorem unfinished_of_decimal (start : StartsDecimal (c :: rest)) (failed : decimal (c :: rest) = .error f) :
    Unfinished f (c :: rest) := by
  obtain ⟨rfl, whole, tail, same, isGroup, cut⟩ := (decimal_error_iff (cons_ne_nil c rest)).1 failed
  rw [same] at start ⊢
  exact .decimal isGroup cut start

/-- A number that cannot be read is cut off. -/
theorem unfinished_of_read (digit : isDecimal c = true) (failed : (Number.read (c :: rest)).outcome = .error f) :
    Unfinished f (c :: rest) := by
  by_cases zero : c = '0'.toNat
  · subst zero
    cases rest with
    | nil =>
      cases failed
      exact .zero
    | cons d rest =>
      rw [read_zero] at failed
      split at failed
      · exact .hex ‹_› (hex_error_iff.1 failed)
      split at failed
      · rw [plain_error_iff, map_error_iff, digitsAt_error_iff] at failed
        obtain ⟨rfl, ended⟩ := failed
        obtain rfl : rest = [] := ended
        exact .binary ‹_›
      split at failed
      · rw [plain_error_iff, map_error_iff, digitsAt_error_iff] at failed
        cases failed.2
      · rename_i noOctal
        exact unfinished_of_decimal (.inl ⟨rfl, fun _ => Bool.eq_false_iff.2 noOctal⟩) (plain_error_iff.1 failed)
  · rw [read_nonzero zero] at failed
    exact unfinished_of_decimal (.inl ⟨digit, fun same => absurd (Option.some.inj same) zero⟩) (plain_error_iff.1 failed)

/-- The reader of numbers meets a decimal number that is cut off where no octal digit stands behind a zero. -/
theorem read_of_decimal (digit : isDecimal c = true)
    (noOctal : (c :: rest).head? = some '0'.toNat → isAt (c :: rest) 1 "01234567" = false)
    (failed : decimal (c :: rest) = .error f) : (Number.read (c :: rest)).outcome = .error f := by
  by_cases zero : c = '0'.toNat
  · subst zero
    have others : ∀ d ∈ ofString "0123456789_lL.eE", oneOf "xX" d = false ∧ oneOf "bB" d = false := by decide
    obtain ⟨d, rest, rfl, among⟩ := second_of_cut digit failed
    obtain ⟨noHex, noBinary⟩ := others d among
    have noOctal : oneOf "01234567" d = false := noOctal rfl
    rw [read_zero, noHex, noBinary, noOctal]
    exact plain_error_iff.2 failed
  · rw [read_nonzero zero]
    exact plain_error_iff.2 failed

/-- Behind a point, a decimal number that is cut off has a digit, where a digit of any script is asked for. -/
theorem second_of_point (digit : rest.head?.any isDigit = true)
    (failed : decimal ('.'.toNat :: rest) = .error f) : rest.head?.any isDecimal = true := by
  obtain ⟨-, whole, tail, starts, isGroup, cut⟩ := (decimal_error_iff (cons_ne_nil _ rest)).1 failed
  have others : ∀ d ∈ ofString "_lLeE", isDigit d = false := by decide
  cases whole with
  | cons a whole =>
    injection starts with same _
    exact absurd (mem_of_isGroup isGroup a mem_cons_self) (same ▸ by decide)
  | nil =>
    rw [nil_append] at starts
    cases cut with
    | point =>
      cases starts
      cases digit
    | exponent isOpen =>
      obtain ⟨d, _, rfl, isMark, -⟩ := isOpen
      injection starts with same _
      rw [← same] at isMark
      exact absurd isMark (by decide)
    | @fraction frac tail isFrac isOpen =>
      injection starts with _ same
      rw [same] at digit ⊢
      cases frac with
      | nil =>
        obtain ⟨d, tail, rfl, isMark, -⟩ := isOpen
        have marks : ∀ d ∈ ofString "eE", d ∈ ofString "_lLeE" := by decide
        cases (others d (marks d (contains_iff_mem.1 isMark))).symm.trans digit
      | cons d frac =>
        have among : ∀ d ∈ ofString "0123456789_lL", isDecimal d = true ∨ d ∈ ofString "_lLeE" := by decide
        rcases among d (mem_of_isGroup isFrac d mem_cons_self) with isDigit | mark
        · exact isDigit
        · cases (others d mark).symm.trans digit

theorem Unfinished.head (unfinished : Unfinished f (c :: rest)) : isDecimal c = true ∨ c = '.'.toNat := by
  generalize same : c :: rest = text at unfinished
  cases unfinished with
  | zero | binary | hex =>
    cases same
    exact .inl (by decide)
  | decimal _ _ start =>
    rw [← same] at start
    exact start.imp And.left fun point => Option.some.inj point.1

theorem Unfinished.visible (unfinished : Unfinished f (c :: rest)) :
    isBlank c = false ∧ comment? (c :: rest) = none := by
  rcases unfinished.head with digit | rfl
  · exact ⟨isDecimal_visible digit, comment?_of_ne (ne_of_holds digit (by decide)) rest⟩
  · exact ⟨by decide, comment?_of_ne (by decide) rest⟩

/-- **A lexeme cannot be read** exactly where a number is cut off. -/
theorem lexeme?_error_iff :
    (∃ reading, lexeme? c rest = some reading ∧ reading.outcome = .error f) ↔ Unfinished f (c :: rest) := by
  constructor
  · rintro ⟨reading, read, failed⟩
    cases lexeme?_readBy read with
    | operator found =>
      obtain ⟨op, -, rfl⟩ := Option.map_eq_some_iff.1 found
      cases failed
    | point isPoint digit =>
      subst isPoint
      replace failed := plain_error_iff.1 failed
      refine unfinished_of_decimal (.inr ⟨rfl, ?_⟩) failed
      rw [getElem?_cons_succ, ← head?_eq_getElem?]
      exact second_of_point digit failed
    | quotation =>
      unfold Quotation.read at failed
      split at failed <;> cases failed
    | digit digit => exact unfinished_of_read digit failed
    | atSign | separator | word => cases failed
  · intro unfinished
    generalize same : c :: rest = text at unfinished
    cases unfinished with
    | zero =>
      cases same
      exact ⟨_, lexeme?_of_digit (by decide) _, rfl⟩
    | binary isMark =>
      cases same
      have others : ∀ d ∈ ofString "bB", oneOf "xX" d = false := by decide
      refine ⟨_, lexeme?_of_digit (by decide) _, ?_⟩
      rw [read_zero, others _ (contains_iff_mem.1 isMark), isMark]
      rfl
    | hex isMark cut =>
      cases same
      refine ⟨_, lexeme?_of_digit (by decide) _, ?_⟩
      rw [read_zero, if_pos isMark]
      exact hex_error_iff.2 cut
    | decimal isGroup cut start =>
      have failed := (decimal_error_iff (same ▸ cons_ne_nil c rest)).2 ⟨rfl, _, _, rfl, isGroup, cut⟩
      rw [← same] at failed start
      rcases start with ⟨digit, noOctal⟩ | ⟨point, digit⟩
      · exact ⟨_, lexeme?_of_digit digit rest, read_of_decimal digit noOctal failed⟩
      · obtain rfl := Option.some.inj point
        cases rest with
        | nil => cases digit
        | cons d rest => exact ⟨_, lexeme?_of_point digit rest, plain_error_iff.2 failed⟩

end

end JavaSource.Lexer

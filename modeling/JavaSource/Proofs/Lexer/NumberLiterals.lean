import Mathlib
import JavaSource.Proofs.Lexer.Coverage
import JavaSource.Proofs.Lexer.Numbers

/-!
# The numbers of the language

`NumberLiteral` is the grammar of integer and floating point literals, production by production. In front of a
semicolon every such number is read as one token of its class, except for two kinds that start with a zero: an octal
number with an underscore right behind the zero is classed as a decimal one, and a decimal floating point number that
goes on with an octal digit is cut off where an octal number would end: `tokenize_numberLiteral_iff`.
-/

namespace JavaSource

open List Text

namespace Lexer

namespace Number

/-! ## The grammar -/

/-- The text is empty, or it is what is asked for. -/
def Optional (P : Text → Prop) (text : Text) : Prop := text = [] ∨ P text

/-- The text is one of the characters of `s`. -/
def OneOf (s : String) (text : Text) : Prop := ∃ c, Text.oneOf s c = true ∧ text = [c]

/-- Digits, the first and the last of which may have underscores between them. -/
inductive Digits (isDigit : CodePoint → Bool) : Text → Prop where
  | one {c : CodePoint} (digit : isDigit c = true) : Digits isDigit [c]
  | more {c d : CodePoint} {between : Text} (first : isDigit c = true)
    (each : ∀ e ∈ between, isDigit e = true ∨ e = '_'.toNat) (last : isDigit d = true) :
    Digits isDigit (c :: (between ++ [d]))

/-- One underscore or more. -/
def Underscores (text : Text) : Prop := text ≠ [] ∧ ∀ c ∈ text, c = '_'.toNat

inductive DecimalNumeral : Text → Prop where
  | zero : DecimalNumeral ['0'.toNat]
  | digits {c : CodePoint} {digits : Text} (first : Text.oneOf "123456789" c = true)
    (rest : Optional (Digits isDecimal) digits) : DecimalNumeral (c :: digits)
  | underscores {c : CodePoint} {low digits : Text} (first : Text.oneOf "123456789" c = true)
    (isLow : Underscores low) (rest : Digits isDecimal digits) : DecimalNumeral (c :: (low ++ digits))

inductive OctalNumeral : Text → Prop where
  | digits {digits : Text} (rest : Digits isOctal digits) : OctalNumeral ('0'.toNat :: digits)
  | underscores {low digits : Text} (isLow : Underscores low) (rest : Digits isOctal digits) :
    OctalNumeral ('0'.toNat :: (low ++ digits))

/-- Digits behind a zero and the mark of a base. -/
inductive MarkedNumeral (marks : String) (isDigit : CodePoint → Bool) : Text → Prop where
  | digits {x : CodePoint} {digits : Text} (mark : Text.oneOf marks x = true) (rest : Digits isDigit digits) :
    MarkedNumeral marks isDigit ('0'.toNat :: x :: digits)

/-- The exponent of a floating point number: its mark, a sign if there is one, and digits. -/
inductive Exponent (marks : String) : Text → Prop where
  | signed {c : CodePoint} {sign digits : Text} (mark : Text.oneOf marks c = true)
    (isSign : Optional (OneOf "+-") sign) (rest : Digits isDecimal digits) : Exponent marks (c :: (sign ++ digits))

inductive DecimalFloat : Text → Prop where
  | whole {whole fraction exponent mark : Text} (isWhole : Digits isDecimal whole)
    (isFraction : Optional (Digits isDecimal) fraction) (isExponent : Optional (Exponent "eE") exponent)
    (isMark : Optional (OneOf "fFdD") mark) : DecimalFloat (whole ++ '.'.toNat :: (fraction ++ (exponent ++ mark)))
  | fraction {fraction exponent mark : Text} (isFraction : Digits isDecimal fraction)
    (isExponent : Optional (Exponent "eE") exponent) (isMark : Optional (OneOf "fFdD") mark) :
    DecimalFloat ('.'.toNat :: (fraction ++ (exponent ++ mark)))
  | exponent {whole exponent mark : Text} (isWhole : Digits isDecimal whole) (isExponent : Exponent "eE" exponent)
    (isMark : Optional (OneOf "fFdD") mark) : DecimalFloat (whole ++ (exponent ++ mark))
  | mark {whole exponent mark : Text} (isWhole : Digits isDecimal whole)
    (isExponent : Optional (Exponent "eE") exponent) (isMark : OneOf "fFdD" mark) :
    DecimalFloat (whole ++ (exponent ++ mark))

inductive HexSignificand : Text → Prop where
  | whole {numeral point : Text} (isNumeral : MarkedNumeral "xX" isHex numeral) (isPoint : Optional (OneOf ".") point) :
    HexSignificand (numeral ++ point)
  | fraction {x : CodePoint} {whole fraction : Text} (mark : Text.oneOf "xX" x = true)
    (isWhole : Optional (Digits isHex) whole) (isFraction : Digits isHex fraction) :
    HexSignificand ('0'.toNat :: x :: (whole ++ '.'.toNat :: fraction))

inductive HexFloat : Text → Prop where
  | exponent {significand exponent mark : Text} (isSignificand : HexSignificand significand)
    (isExponent : Exponent "pP" exponent) (isMark : Optional (OneOf "fFdD") mark) :
    HexFloat (significand ++ (exponent ++ mark))

/-- **The numbers of the language**, with the class that each should have. -/
inductive NumberLiteral : TokenClass → Text → Prop where
  | decimal {numeral mark : Text} (isNumeral : DecimalNumeral numeral) (isMark : Optional (OneOf "lL") mark) :
    NumberLiteral .decimalInteger (numeral ++ mark)
  | hex {numeral mark : Text} (isNumeral : MarkedNumeral "xX" isHex numeral) (isMark : Optional (OneOf "lL") mark) :
    NumberLiteral .hexInteger (numeral ++ mark)
  | octal {numeral mark : Text} (isNumeral : OctalNumeral numeral) (isMark : Optional (OneOf "lL") mark) :
    NumberLiteral .octalInteger (numeral ++ mark)
  | binary {numeral mark : Text} (isNumeral : MarkedNumeral "bB" isBinary numeral)
    (isMark : Optional (OneOf "lL") mark) : NumberLiteral .binaryInteger (numeral ++ mark)
  | decimalFloat {w : Text} (isFloat : DecimalFloat w) : NumberLiteral .decimalFloatingPoint w
  | hexFloat {w : Text} (isFloat : HexFloat w) : NumberLiteral .hexFloatingPoint w

/-! ## The parts of a number in front of the reader -/

/-- The text is empty, or its first character is among some. -/
def StartsAmong (marks text : Text) : Prop := ∀ c ∈ text.head?, c ∈ marks

variable {marks text : Text} {c : CodePoint}

theorem StartsAmong.append {a b : Text} (first : StartsAmong marks a) (second : StartsAmong marks b) :
    StartsAmong marks (a ++ b) := by
  cases a with
  | nil => exact second
  | cons c a => exact first

theorem StartsAmong.mono {marks' : Text} (starts : StartsAmong marks text)
    (sub : ∀ c ∈ marks, c ∈ marks') : StartsAmong marks' text :=
  fun c mem => sub c (starts c mem)

theorem startsAmong_cons (among : c ∈ marks) (text : Text) : StartsAmong marks (c :: text) := by
  rintro d ⟨⟩
  exact among

theorem startsAmong_optional {P : Text → Prop} (isText : Optional P text)
    (starts : P text → StartsAmong marks text) : StartsAmong marks text := by
  rcases isText with rfl | isText
  · rintro c ⟨⟩
  · exact starts isText

variable {s : String}

theorem startsAmong_oneOf (isOne : OneOf s text)
    (sub : ∀ c ∈ ofString s, c ∈ marks) : StartsAmong marks text := by
  obtain ⟨c, among, rfl⟩ := isOne
  exact startsAmong_cons (sub c (contains_iff_mem.1 among)) []

theorem startsAmong_exponent (isExponent : Exponent s text)
    (sub : ∀ c ∈ ofString s, c ∈ marks) : StartsAmong marks text := by
  obtain ⟨mark, -, -⟩ := isExponent
  exact startsAmong_cons (sub _ (contains_iff_mem.1 mark)) _

variable {mark part : Text}

section

variable {isDigit : CodePoint → Bool} {marks text rest : Text} {n : Nat}

variable {s : String}

theorem StartsAmong.not_any (starts : StartsAmong marks rest)
    (apart : ∀ c ∈ marks, oneOf s c = false) : rest.head?.any (oneOf s) = false := by
  cases rest with
  | nil => rfl
  | cons c rest => exact apart c (starts c rfl)

theorem StartsAmong.any (starts : StartsAmong (ofString s) text) (nonempty : text ≠ [])
    (rest : Text) : (text ++ rest).head?.any (oneOf s) = true := by
  cases text with
  | nil => exact absurd rfl nonempty
  | cons c text => exact contains_iff_mem.2 (starts c rfl)

theorem StartsAmong.ends (starts : StartsAmong marks rest)
    (apart : ∀ c ∈ marks, isDigit c = false ∧ c ∉ ofString "_lL") : Ends isDigit rest :=
  fun c mem => apart c (starts c mem)

theorem Digits.ne_nil (digits : Digits isDigit text) : text ≠ [] := by
  cases digits <;> exact cons_ne_nil _ _

theorem Digits.head (digits : Digits isDigit text) : ∃ c rest, text = c :: rest ∧ isDigit c = true := by
  cases digits with
  | one digit => exact ⟨_, _, rfl, digit⟩
  | more first => exact ⟨_, _, rfl, first⟩

theorem Digits.each (digits : Digits isDigit text) : ∀ c ∈ text, isDigit c = true ∨ c = '_'.toNat := by
  cases digits with
  | one digit => exact forall_mem_singleton.2 (.inl digit)
  | more first each last =>
    refine forall_mem_cons.2 ⟨.inl first, fun c mem => ?_⟩
    rcases mem_append.1 mem with mem | mem
    · exact each c mem
    · exact .inl (mem_singleton.1 mem ▸ last)

theorem Digits.last (digits : Digits isDigit text) : text.getLast?.any isDigit = true := by
  cases digits with
  | one digit => exact digit
  | more first each last =>
    rw [← cons_append, getLast?_concat]
    exact last

theorem mem_integerMarks (isMark : Optional (OneOf "lL") mark) : mark ∈ integerMarks := by
  rcases isMark with rfl | ⟨c, among, rfl⟩
  · decide
  · have marks : ∀ c ∈ ofString "lL", [c] ∈ integerMarks := by decide
    exact marks c (contains_iff_mem.1 among)

/-- Digits and a mark are what the reader of digits takes. -/
theorem Digits.isGroup (digits : Digits isDigit text) (isMark : Optional (OneOf "lL") mark) :
    IsGroup isDigit (text ++ mark) := by
  refine ⟨text, mark, rfl, mem_integerMarks isMark, digits.each, ?_⟩
  have last := digits.last
  cases found : text.getLast? with
  | none => rfl
  | some c =>
    rw [found] at last
    exact last

theorem isGroup_optional (digits : Optional (Digits isDigit) text) : IsGroup isDigit text := by
  rcases digits with rfl | digits
  · exact ⟨[], [], rfl, by decide, forall_mem_nil _, rfl⟩
  · exact append_nil text ▸ digits.isGroup (.inl rfl)

/-! Each reader takes its part of what is still to be read, and leaves the rest. -/

theorem optional_mark {mark : Text} {s : String} (isMark : Optional (OneOf s) mark)
    (other : rest.head?.any (oneOf s) = false) (dropped : text.drop n = mark ++ rest) :
    optional text n s = n + mark.length := by
  rw [optional, isAt_eq_drop, dropped]
  rcases isMark with rfl | ⟨c, among, rfl⟩
  · rw [nil_append, other]
    rfl
  · rw [singleton_append, head?_cons, Option.any_some, among]
    rfl

/-- A fraction: nothing, or a point and digits, if there are any. -/
def Fraction (isDigit : CodePoint → Bool) (text : Text) : Prop :=
  Optional (fun text => ∃ digits, text = '.'.toNat :: digits ∧ Optional (Digits isDigit) digits) text

theorem fraction_part (apart : Apart isDigit) (isFraction : Fraction isDigit part)
    (ends : Ends isDigit rest) (noPoint : rest.head?.any (oneOf ".") = false) (nonempty : rest ≠ [])
    (dropped : text.drop n = part ++ rest) : fraction isDigit text n = .ok (n + part.length) := by
  rcases isFraction with rfl | ⟨digits, rfl, isDigits⟩
  · have elsewhere : isAt text n "." = false := by
      rw [isAt_eq_drop, dropped]
      exact noPoint
    rw [fraction, if_neg (Bool.eq_false_iff.1 elsewhere)]
    rfl
  · rw [(fraction_group apart (isGroup_optional isDigits) ends (by simp [nonempty]) dropped).1, length_cons,
      Nat.add_assoc, Nat.add_comm 1]

theorem exponent_part (isExponent : Exponent s part) (ends : Ends isDecimal rest)
    (dropped : text.drop n = part ++ rest) :
    isAt text n s = true ∧ digitsAt isDecimal text (optional text (n + 1) "-+") = .ok (n + part.length) := by
  obtain @⟨c, sign, digits, mark, isSign, isDigits⟩ := isExponent
  have behind : text.drop (n + 1) = sign ++ (digits ++ rest) := by
    rw [← append_assoc]
    exact drop_further [c] dropped
  have noSign : (digits ++ rest).head?.any (oneOf "-+") = false := by
    obtain ⟨d, more, rfl, digit⟩ := isDigits.head
    have others : ∀ d ∈ ofString "0123456789", oneOf "-+" d = false := by decide
    exact others d (mem_digits digit)
  have signed : Optional (OneOf "-+") sign := by
    rcases isSign with rfl | ⟨d, among, rfl⟩
    · exact .inl rfl
    · have both : ∀ d ∈ ofString "+-", oneOf "-+" d = true := by decide
      exact .inr ⟨d, both d (contains_iff_mem.1 among), rfl⟩
  have group := isGroup_optional (.inr isDigits)
  constructor
  · rw [isAt_eq_drop, dropped]
    exact mark
  · rw [optional_mark signed noSign behind,
      digitsAt_group (by decide) group ends (by simp [isDigits.ne_nil]) (drop_further sign behind), length_cons,
      length_append]
    congr 1
    omega

end

/-! ## Floating point numbers -/

def semicolon : Text := Text.ofString ";"

/-- The parts of a decimal floating point number. -/
structure FloatParts (w whole part exponent mark : Text) : Prop where
  split : w = whole ++ (part ++ (exponent ++ mark))
  isFraction : Fraction isDecimal part
  isExponent : Optional (Exponent "eE") exponent
  isMark : Optional (OneOf "fFdD") mark
  /-- It is more than an integer. -/
  goesOn : part ++ (exponent ++ mark) ≠ []
  /-- There are digits before or behind the point. -/
  isWhole : Digits isDecimal whole ∨ whole = [] ∧ ∃ digits, part = '.'.toNat :: digits ∧ Digits isDecimal digits

variable {w : Text}

theorem DecimalFloat.parts (isFloat : DecimalFloat w) :
    ∃ whole part exponent mark, FloatParts w whole part exponent mark := by
  cases isFloat with
  | whole isWhole isFraction isExponent isMark =>
    exact ⟨_, _, _, _, by simp, .inr ⟨_, rfl, isFraction⟩, isExponent, isMark, by simp, .inl isWhole⟩
  | fraction isFraction isExponent isMark =>
    exact ⟨[], _, _, _, by simp, .inr ⟨_, rfl, .inr isFraction⟩, isExponent, isMark, by simp,
      .inr ⟨rfl, _, rfl, isFraction⟩⟩
  | exponent isWhole isExponent isMark =>
    refine ⟨_, [], _, _, rfl, .inl rfl, .inr isExponent, isMark, ?_, .inl isWhole⟩
    cases isExponent
    simp
  | mark isWhole isExponent isMark =>
    refine ⟨_, [], _, _, rfl, .inl rfl, isExponent, .inr isMark, ?_, .inl isWhole⟩
    obtain ⟨c, -, rfl⟩ := isMark
    simp

variable {x : CodePoint}

section

variable {w whole part exponent mark : Text}

variable {isDigit : CodePoint → Bool}

theorem startsAmong_fraction (isFraction : Fraction isDigit part)
    (point : '.'.toNat ∈ marks) : StartsAmong marks part := by
  refine startsAmong_optional isFraction ?_
  rintro ⟨digits, rfl, -⟩
  exact startsAmong_cons point digits

/-- Behind the digits of its whole part a floating point number goes on with a mark, and no digits. -/
theorem FloatParts.startsAmong (parts : FloatParts w whole part exponent mark) :
    StartsAmong (ofString ".eEfFdD") (part ++ (exponent ++ mark)) :=
  (startsAmong_fraction parts.isFraction (by decide)).append <|
    (startsAmong_optional parts.isExponent fun is => startsAmong_exponent is (by decide)).append
      (startsAmong_optional parts.isMark fun is => startsAmong_oneOf is (by decide))

theorem startsAmong_mark (isMark : Optional (OneOf "fFdD") mark) :
    StartsAmong (ofString "fFdD;") (mark ++ semicolon) :=
  (startsAmong_optional isMark fun is => startsAmong_oneOf is (by decide)).append (startsAmong_cons (by decide) [])

theorem append_semicolon_ne_nil (text : Text) : text ++ semicolon ≠ [] :=
  append_ne_nil_of_right_ne_nil text (cons_ne_nil _ _)

/-- **A decimal floating point number** is read part by part. -/
theorem FloatParts.decimal_eq (parts : FloatParts w whole part exponent mark) :
    decimal (w ++ semicolon) = .ok (.decimalFloatingPoint, w.length) := by
  have split : w ++ semicolon = whole ++ (part ++ (exponent ++ (mark ++ semicolon))) := by
    rw [parts.split]
    simp only [append_assoc]
  have group : IsGroup isDecimal whole := isGroup_optional (parts.isWhole.symm.imp And.left id)
  have third := startsAmong_mark parts.isMark
  have second : StartsAmong (ofString "eEfFdD;") (exponent ++ (mark ++ semicolon)) :=
    (startsAmong_optional parts.isExponent fun is => startsAmong_exponent is (by decide)).append
      (third.mono (by decide))
  have first : StartsAmong (ofString ".eEfFdD;") (part ++ (exponent ++ (mark ++ semicolon))) :=
    (startsAmong_fraction parts.isFraction (by decide)).append (second.mono (by decide))
  have behindWhole : (w ++ semicolon).drop whole.length = part ++ (exponent ++ (mark ++ semicolon)) := by
    rw [split, drop_left]
  have behindPart := drop_further part behindWhole
  have behindExponent := drop_further exponent behindPart
  have taken : digits isDecimal (w ++ semicolon) = .ok whole.length := by
    rw [split]
    exact digits_group (by decide) group (first.ends (by decide)) (by simp [semicolon, ofString])
  have goesOn : isAt (w ++ semicolon) whole.length ".eEfFdD" = true := by
    have whole : part ++ (exponent ++ (mark ++ semicolon)) = part ++ (exponent ++ mark) ++ semicolon := by
      simp only [append_assoc]
    rw [isAt_eq_drop, behindWhole, whole]
    exact parts.startsAmong.any parts.goesOn semicolon
  have fractionRead : fraction isDecimal (w ++ semicolon) whole.length = .ok (whole.length + part.length) :=
    fraction_part (by decide) parts.isFraction (second.ends (by decide)) (second.not_any (by decide))
      (by simp [semicolon, ofString]) behindWhole
  have markRead := @optional_mark _ semicolon _ _ _ parts.isMark (by decide) behindExponent
  have length : w.length = whole.length + part.length + exponent.length + mark.length := by
    rw [parts.split]
    simp only [length_append]
    omega
  rw [decimal, taken, length]
  simp only [bind, Except.bind, goesOn, Bool.not_true, Bool.false_eq_true, if_false, fractionRead]
  rcases parts.isExponent with rfl | isExponent
  · have elsewhere : isAt (w ++ semicolon) (whole.length + part.length) "eE" = false := by
      rw [isAt_eq_drop, behindPart]
      exact third.not_any (by decide)
    rw [if_neg (Bool.eq_false_iff.1 elsewhere)]
    exact congrArg (fun n => Except.ok (TokenClass.decimalFloatingPoint, n)) markRead
  · obtain ⟨here, read⟩ := exponent_part isExponent (third.ends (by decide)) behindPart
    rw [if_pos here, read]
    exact congrArg (fun n => Except.ok (TokenClass.decimalFloatingPoint, n)) markRead

/-- **A hexadecimal floating point number** is read part by part. -/
theorem hex_float (isWhole : Optional (Digits isHex) whole) (isFraction : Fraction isHex part)
    (isExponent : Exponent "pP" exponent) (isMark : Optional (OneOf "fFdD") mark) :
    hex ('0'.toNat :: x :: (whole ++ (part ++ (exponent ++ (mark ++ semicolon))))) =
      .plain .hexFloatingPoint (2 + whole.length + part.length + exponent.length + mark.length) := by
  generalize text_eq : '0'.toNat :: x :: (whole ++ (part ++ (exponent ++ (mark ++ semicolon)))) = text
  have behindBase : text.drop 2 = whole ++ (part ++ (exponent ++ (mark ++ semicolon))) := text_eq ▸ rfl
  have third := startsAmong_mark isMark
  have second : StartsAmong (ofString "pP") (exponent ++ (mark ++ semicolon)) := by
    cases isExponent with
    | signed isMark => exact startsAmong_cons (contains_iff_mem.1 isMark) _
  have first : StartsAmong (ofString ".pP") (part ++ (exponent ++ (mark ++ semicolon))) :=
    (startsAmong_fraction isFraction (by decide)).append (second.mono (by decide))
  have nonempty : exponent ++ (mark ++ semicolon) ≠ [] := by simp [semicolon, ofString]
  have behindWhole := drop_further whole behindBase
  have behindPart := drop_further part behindWhole
  have behindExponent := drop_further exponent behindPart
  have taken : digitsAt isHex text 2 = .ok (2 + whole.length) :=
    digitsAt_group (by decide) (isGroup_optional isWhole) (first.ends (by decide)) (by simp [nonempty]) behindBase
  have goesOn : isAt text (2 + whole.length) ".pP" = true := by
    rw [isAt_eq_drop, behindWhole, ← append_nil (part ++ _)]
    exact first.any (by simp [nonempty]) []
  have fractionRead : fraction isHex text (2 + whole.length) = .ok (2 + whole.length + part.length) :=
    fraction_part (by decide) isFraction (second.ends (by decide)) (second.not_any (by decide)) nonempty behindWhole
  obtain ⟨here, exponentRead⟩ := exponent_part isExponent (third.ends (by decide)) behindPart
  have markRead := @optional_mark _ semicolon _ _ _ isMark (by decide) behindExponent
  rw [hex, taken]
  simp only [goesOn, Bool.not_true, Bool.false_eq_true, if_false, fractionRead, hexExponent, here, if_true,
    exponentValue, exponentRead, Except.map, markRead]
  rfl

variable {digits : Text}

/-- The digits of an integer and its mark are read up to the semicolon. -/
theorem digitsAt_integer {n : Nat} (apart : Apart isDigit)
    (stops : isDigit ';'.toNat = false) (isDigits : Digits isDigit digits) (isMark : Optional (OneOf "lL") mark)
    (dropped : text.drop n = digits ++ mark ++ semicolon) :
    digitsAt isDigit text n = .ok (n + (digits ++ mark).length) := by
  have ends : Ends isDigit semicolon := by
    rintro c ⟨⟩
    exact ⟨stops, by decide⟩
  exact digitsAt_group apart (isDigits.isGroup isMark) ends (append_semicolon_ne_nil _) dropped

theorem hex_integer (isDigits : Digits isHex digits)
    (isMark : Optional (OneOf "lL") mark) :
    hex ('0'.toNat :: x :: (digits ++ mark ++ semicolon)) = .plain .hexInteger (2 + (digits ++ mark).length) := by
  generalize text_eq : '0'.toNat :: x :: (digits ++ mark ++ semicolon) = text
  have behindBase : text.drop 2 = digits ++ mark ++ semicolon := text_eq ▸ rfl
  have taken : digitsAt isHex text 2 = .ok (2 + (digits ++ mark).length) :=
    digitsAt_integer (by decide) rfl isDigits isMark behindBase
  have stops : isAt text (2 + (digits ++ mark).length) ".pP" = false := by
    rw [isAt_eq_drop, drop_further _ behindBase]
    rfl
  rw [hex, taken]
  simp only [stops, Bool.not_false, if_true]

end

theorem HexSignificand.parts {significand : Text} (isSignificand : HexSignificand significand) :
    ∃ x whole part, significand = '0'.toNat :: x :: (whole ++ part) ∧ oneOf "xX" x = true ∧
      Optional (Digits isHex) whole ∧ Fraction isHex part := by
  cases isSignificand with
  | whole isNumeral isPoint =>
    obtain @⟨x, digits, mark, isDigits⟩ := isNumeral
    refine ⟨x, digits, _, rfl, mark, .inr isDigits, isPoint.imp_right ?_⟩
    rintro ⟨c, among, rfl⟩
    have point : ∀ c ∈ ofString ".", c = '.'.toNat := by decide
    exact ⟨[], by rw [point c (contains_iff_mem.1 among)], .inl rfl⟩
  | fraction mark isWhole isFraction => exact ⟨_, _, _, rfl, mark, isWhole, .inr ⟨_, rfl, .inr isFraction⟩⟩

/-! ## The choice of a reader -/

theorem oneOf_octal (digit : isOctal c = true) : oneOf "01234567" c = true := by
  have small : ∀ d < 56, 48 ≤ d → oneOf "01234567" d = true := by decide
  rw [isOctal, Bool.and_eq_true, decide_eq_true_eq, decide_eq_true_eq] at digit
  exact small c (Nat.lt_succ_of_le digit.2) digit.1

variable {d : CodePoint}

theorem read_zero_octal (octal : oneOf "01234567" d = true) (rest : Text) :
    read ('0'.toNat :: d :: rest) =
      plain ((digitsAt isOctal ('0'.toNat :: d :: rest) 1).map (.octalInteger, ·)) := by
  have others : ∀ d ∈ ofString "01234567", oneOf "xX" d = false ∧ oneOf "bB" d = false := by decide
  obtain ⟨noHex, noBinary⟩ := others d (contains_iff_mem.1 octal)
  rw [read_zero, if_neg (Bool.eq_false_iff.1 noHex), if_neg (Bool.eq_false_iff.1 noBinary), if_pos octal]

section

variable {digits mark : Text}

/-- An octal number is what the reader of octal digits takes behind the zero. -/
theorem read_octal (isDigits : Digits isOctal digits) (isMark : Optional (OneOf "lL") mark) :
    read ('0'.toNat :: (digits ++ mark ++ semicolon)) = .plain .octalInteger (digits ++ mark).length.succ := by
  have taken : digitsAt isOctal ('0'.toNat :: (digits ++ mark ++ semicolon)) 1 = .ok (1 + (digits ++ mark).length) :=
    digitsAt_integer (by decide) rfl isDigits isMark rfl
  obtain ⟨d, more, rfl, digit⟩ := isDigits.head
  rw [Nat.succ_eq_one_add, cons_append, cons_append, read_zero_octal (oneOf_octal digit)]
  exact congrArg (fun taken => plain (taken.map (TokenClass.octalInteger, ·))) taken

/-- A binary number is what the reader of binary digits takes behind the mark of the base. -/
theorem read_binary (isBase : oneOf "bB" x = true) (isDigits : Digits isBinary digits)
    (isMark : Optional (OneOf "lL") mark) :
    read ('0'.toNat :: x :: (digits ++ mark ++ semicolon)) = .plain .binaryInteger (2 + (digits ++ mark).length) := by
  have taken : digitsAt isBinary ('0'.toNat :: x :: (digits ++ mark ++ semicolon)) 2 =
      .ok (2 + (digits ++ mark).length) :=
    digitsAt_integer (by decide) rfl isDigits isMark rfl
  have others : ∀ x ∈ ofString "bB", oneOf "xX" x = false := by decide
  rw [read_zero, if_neg (Bool.eq_false_iff.1 (others x (contains_iff_mem.1 isBase))), if_pos isBase, taken]
  rfl

/-- Digits and underscores between them make a decimal number, where the reader of octal ones is not called. -/
theorem isDecimal_underscores {isDigit : CodePoint → Bool} {c : CodePoint} {low : Text} (first : isDecimal c = true)
    (isLow : ∀ e ∈ low, e = '_'.toNat) (isDigits : Digits isDigit digits)
    (decimal : ∀ e, isDigit e = true → isDecimal e = true)
    (apart : c = '0'.toNat → low ≠ []) : IsDecimal (c :: (low ++ digits)) := by
  refine ⟨first, ?_, forall_mem_cons.2 ⟨.inl first, forall_mem_append.2 ⟨?_, ?_⟩⟩, ?_⟩
  · have last := isDigits.last
    rw [← cons_append, getLast?_append]
    cases found : digits.getLast? with
    | none =>
      rw [found] at last
      cases last
    | some d =>
      rw [found] at last
      exact decimal d last
  · exact fun e mem => .inr (isLow e mem)
  · exact fun e mem => (isDigits.each e mem).imp_left (decimal e)
  · intro zero
    cases low with
    | nil => exact absurd rfl (apart (Option.some.inj zero))
    | cons e low =>
      rw [isLow e mem_cons_self]
      rfl

end

theorem Underscores.head {low : Text} (isLow : Underscores low) : ∃ more, low = '_'.toNat :: more := by
  obtain ⟨nonempty, each⟩ := isLow
  cases low with
  | nil => exact absurd rfl nonempty
  | cons c more => exact ⟨more, by rw [each c mem_cons_self]⟩

theorem nonzero_digit (first : oneOf "123456789" c = true) : isDecimal c = true ∧ c ≠ '0'.toNat := by
  have digits : ∀ c ∈ ofString "123456789", isDecimal c = true ∧ c ≠ '0'.toNat := by decide
  exact digits c (contains_iff_mem.1 first)

variable {numeral : Text}

theorem DecimalNumeral.isDecimal (isNumeral : DecimalNumeral numeral) : IsDecimal numeral := by
  cases isNumeral with
  | zero => decide
  | digits first rest =>
    obtain ⟨digit, nonzero⟩ := nonzero_digit first
    rcases rest with rfl | rest
    · exact ⟨digit, digit, forall_mem_singleton.2 (.inl digit),
        fun zero => absurd (Option.some.inj zero) nonzero⟩
    · exact @isDecimal_underscores _ _ _ [] digit (forall_mem_nil _) rest (fun _ => id)
        fun zero => absurd zero nonzero
  | underscores first isLow rest =>
    obtain ⟨digit, -⟩ := nonzero_digit first
    exact isDecimal_underscores digit isLow.2 rest (fun _ => id) fun _ => isLow.1

/-- A floating point number that starts with a digit goes on with another character of its own. -/
theorem FloatParts.second {whole exponent : Text} (parts : FloatParts w whole part exponent mark)
    (isWhole : Digits Number.isDecimal whole) :
    ∃ c d rest, w = c :: d :: rest ∧ Number.isDecimal c = true ∧ d ∈ ofString "0123456789_.eEfFdD" := by
  obtain ⟨c, more, rfl, digit⟩ := isWhole.head
  cases more with
  | cons d more =>
    refine ⟨c, d, _, parts.split, digit, ?_⟩
    rcases isWhole.each d (by simp) with digit | rfl
    · exact mem_append_left (ofString "_.eEfFdD") (mem_digits digit)
    · decide
  | nil =>
    have starts := parts.startsAmong
    cases behind : part ++ (exponent ++ mark) with
    | nil => exact absurd behind parts.goesOn
    | cons d rest =>
      refine ⟨c, d, rest, by rw [parts.split, behind]; rfl, digit, ?_⟩
      rw [behind] at starts
      exact mem_append_right (ofString "0123456789_") (starts d rfl)

/-! ## What the reader of numbers takes -/

/-- In front of a semicolon the reader of numbers takes the whole text, for a token of the class. -/
structure Taken (cls : TokenClass) (w : Text) : Prop where
  digit : w.head?.any isDecimal = true
  read_eq : read (w ++ semicolon) = .plain cls w.length

/-- The numbers whose class or whose end is mistaken: they start with a zero, and the next character is taken to
belong to a number of another kind. -/
def MisreadZero (cls : TokenClass) (w : Text) : Prop :=
  w.head? = some '0'.toNat ∧
    (cls = .octalInteger ∧ w[1]? = some '_'.toNat ∨
      cls = .decimalFloatingPoint ∧ w[1]?.any (Text.oneOf "01234567") = true)

section

variable {cls : TokenClass} {w : Text}

theorem not_misreadZero (noOctal : cls ≠ .octalInteger) (noFloat : cls ≠ .decimalFloatingPoint) :
    ¬MisreadZero cls w := by
  rintro ⟨-, ⟨octal, -⟩ | ⟨float, -⟩⟩
  · exact noOctal octal
  · exact noFloat float

theorem taken_integer (decimal : IsDecimal numeral) (isMark : Optional (OneOf "lL") mark) :
    Taken .decimalInteger (numeral ++ mark) := by
  refine ⟨?_, read_integer decimal (mem_integerMarks isMark) (by decide) []⟩
  cases numeral with
  | nil => cases decimal.first
  | cons c numeral => exact decimal.first

/-- **Every number** is taken whole, decimal floating point numbers apart. Its class is mistaken if it is an octal one
and its zero is misread. -/
theorem NumberLiteral.taken (literal : NumberLiteral cls w) (noFloat : cls ≠ .decimalFloatingPoint) :
    ∃ found, Taken found w ∧ (¬MisreadZero cls w → found = cls) ∧ (MisreadZero cls w → found = .decimalInteger) := by
  have right {found : TokenClass} (noOctal : found ≠ .octalInteger) (noFloat : found ≠ .decimalFloatingPoint)
      (taken : Taken found w) : ∃ found', Taken found' w ∧ (¬MisreadZero found w → found' = found) ∧
        (MisreadZero found w → found' = .decimalInteger) :=
    ⟨found, taken, fun _ => rfl, fun misread => absurd misread (not_misreadZero noOctal noFloat)⟩
  cases literal with
  | decimal isNumeral isMark => exact right (by decide) noFloat (taken_integer isNumeral.isDecimal isMark)
  | hex isNumeral isMark =>
    obtain ⟨isBase, isDigits⟩ := isNumeral
    refine right (by decide) noFloat ⟨rfl, ?_⟩
    rw [cons_append, cons_append, cons_append, cons_append, read_zero, if_pos isBase,
      hex_integer isDigits isMark, Nat.add_comm]
    rfl
  | octal isNumeral isMark =>
    cases isNumeral with
    | digits rest =>
      refine ⟨_, ⟨rfl, read_octal rest isMark⟩, fun _ => rfl, ?_⟩
      rintro ⟨-, ⟨-, second⟩ | ⟨⟨⟩, -⟩⟩
      obtain ⟨d, more, rfl, digit⟩ := rest.head
      exact absurd (Option.some.inj second) (ne_of_holds digit (by decide))
    | underscores isLow rest =>
      have decimal := @isDecimal_underscores _ _ '0'.toNat _ rfl isLow.2 rest (fun _ => isDecimal_of_isOctal)
        fun _ => isLow.1
      refine ⟨_, taken_integer decimal isMark, fun right => absurd ?_ right, fun _ => rfl⟩
      obtain ⟨low, rfl⟩ := isLow.head
      exact ⟨rfl, .inl ⟨rfl, rfl⟩⟩
  | binary isNumeral isMark =>
    obtain ⟨isBase, isDigits⟩ := isNumeral
    refine right (by decide) noFloat ⟨rfl, ?_⟩
    rw [cons_append, cons_append, cons_append, cons_append, read_binary isBase isDigits isMark,
      Nat.add_comm]
    rfl
  | decimalFloat isFloat => exact absurd rfl noFloat
  | hexFloat isFloat =>
    obtain ⟨isSignificand, isExponent, isMark⟩ := isFloat
    obtain ⟨x, whole, part, rfl, isBase, isWhole, isFraction⟩ := isSignificand.parts
    refine right (by decide) noFloat ⟨rfl, ?_⟩
    have taken := hex_float (x := x) isWhole isFraction isExponent isMark
    simp only [cons_append, append_assoc, length_cons, length_append] at taken ⊢
    rw [read_zero, if_pos isBase, taken]
    congr 1
    omega

theorem Within.whole {rest : Text} (within : Within (w ++ rest) w.length) : ∀ c ∈ w, c ∈ characters := by
  rw [← @List.take_left _ w rest]
  exact within.among

theorem Taken.clean (taken : Taken cls w) : ∀ c ∈ w, c ∈ characters := by
  obtain ⟨digit, read_eq⟩ := taken
  cases w with
  | nil => cases digit
  | cons c w =>
    have number := read_isNumber (mem_characters (isHex_of_isDecimal digit)) (congrArg Reading.outcome read_eq)
    exact number.within.whole

/-- Numbers are made of the characters of numbers, because their readers take nothing else. -/
theorem NumberLiteral.clean (literal : NumberLiteral cls w) : ∀ c ∈ w, c ∈ characters := by
  by_cases float : cls = .decimalFloatingPoint
  · subst float
    cases literal with
    | decimalFloat isFloat =>
      obtain ⟨whole, part, exponent, mark, parts⟩ := isFloat.parts
      exact (decimal_ok parts.decimal_eq).2.whole
  · obtain ⟨found, taken, -⟩ := literal.taken float
    exact taken.clean

/-! ## One token -/

theorem tokenizes_semicolon : Tokenizes semicolon [(.separator, semicolon)] :=
  @tokenizes_lexeme _ [] _ _ _ (by decide) rfl rfl tokenizes_nil

/-- A number that its reader takes is one token. -/
theorem Taken.tokenizes (taken : Taken cls w) : Tokenizes (w ++ semicolon) [(cls, w), (.separator, semicolon)] := by
  obtain ⟨digit, read_eq⟩ := taken
  cases w with
  | nil => cases digit
  | cons c word =>
    have digit : isDecimal c = true := digit
    have slash : c ≠ '/'.toNat := ne_of_holds digit (by decide)
    refine tokenizes_lexeme (isDecimal_visible digit) (comment?_of_ne slash _) ?_ tokenizes_semicolon
    rw [lexeme?_of_digit digit]
    exact congrArg some read_eq

/-- A floating point number is one token, unless it starts as an octal number does. -/
theorem DecimalFloat.tokenizes (isFloat : DecimalFloat w) (read_right : ¬MisreadZero .decimalFloatingPoint w) :
    Tokenizes (w ++ semicolon) [(.decimalFloatingPoint, w), (.separator, semicolon)] := by
  obtain ⟨whole, part, exponent, mark, parts⟩ := isFloat.parts
  have taken := parts.decimal_eq
  rcases parts.isWhole with isWhole | ⟨rfl, digits, rfl, isDigits⟩
  · obtain ⟨c, d, rest, rfl, digit, second⟩ := parts.second isWhole
    refine Taken.tokenizes ⟨digit, ?_⟩
    by_cases zero : c = '0'.toNat
    · subst zero
      have notOctal : oneOf "01234567" d ≠ true := fun octal => read_right ⟨rfl, .inr ⟨rfl, octal⟩⟩
      have others : ∀ d ∈ ofString "0123456789_.eEfFdD",
          oneOf "xX" d = false ∧ oneOf "bB" d = false := by decide
      obtain ⟨noHex, noBinary⟩ := others d second
      rw [cons_append, cons_append, read_zero, if_neg (Bool.eq_false_iff.1 noHex),
        if_neg (Bool.eq_false_iff.1 noBinary), if_neg notOctal]
      exact congrArg plain taken
    · rw [cons_append, read_nonzero zero]
      exact congrArg plain taken
  · obtain ⟨d, more, rfl, digit⟩ := isDigits.head
    obtain rfl := parts.split
    have point : lexeme? '.'.toNat (d :: more ++ (exponent ++ mark) ++ semicolon) =
        some (.plain .decimalFloatingPoint ('.'.toNat :: (d :: more ++ (exponent ++ mark))).length) := by
      rw [cons_append, cons_append, lexeme?_of_point digit]
      exact congrArg (fun taken => some (plain taken)) taken
    exact tokenizes_lexeme (by decide) (comment?_of_ne (by decide) _) point tokenizes_semicolon

theorem digits_ok {isDigit : CodePoint → Bool} {text : Text} (nonempty : text ≠ []) :
    ∃ n, digits isDigit text = .ok n := by
  rw [digits, if_neg (by simpa using nonempty)]
  exact ⟨_, rfl⟩

/-- A zero and an octal digit are the start of an octal number, whatever comes behind them. -/
theorem head_cls_of_octal {rest : Text} (octal : oneOf "01234567" d = true)
    (decodes : unescape ('0'.toNat :: d :: rest) = { outcome := .ok ('0'.toNat :: d :: rest) }) (mode : Mode) :
    (tokenize mode (.text ('0'.toNat :: d :: rest))).tokens.head?.map Token.cls = some .octalInteger := by
  obtain ⟨n, taken⟩ := @digits_ok isOctal (d :: rest) (cons_ne_nil _ _)
  have readAs : lexeme? '0'.toNat (d :: rest) = some (.plain .octalInteger (1 + n)) := by
    rw [lexeme?_of_digit (by decide), read_zero_octal octal, digitsAt, drop_one, tail_cons, taken]
    rfl
  have visible : isBlank '0'.toNat = false := by decide
  rw [@tokenize_of_unescape (.text _) _ decodes, tokensFrom_cons rfl, visible,
    comment?_of_ne (by decide), readAs]
  cases mode <;> rfl

/-- In front of a semicolon the text is read as one token of the class, and the semicolon as another one. -/
def ReadAs (w : Text) (cls : TokenClass) : Prop :=
  ∃ tokens, tokenize .strict (.text (w ++ semicolon)) = { tokens } ∧
    tokens.map Token.spelling = [(cls, w), (.separator, semicolon)]

theorem NumberLiteral.plain (literal : NumberLiteral cls w) : ∀ c ∈ w ++ semicolon, c ≠ '\\'.toNat := by
  have others : ∀ c ∈ characters, c ≠ '\\'.toNat := by decide
  exact forall_mem_append.2 ⟨fun c mem => others c (literal.clean c mem), by decide⟩

theorem NumberLiteral.readAs (literal : NumberLiteral cls w) (read_right : ¬MisreadZero cls w) : ReadAs w cls := by
  refine Tokenizes.tokenize ?_ literal.plain
  by_cases float : cls = .decimalFloatingPoint
  · subst float
    cases literal with | decimalFloat isFloat => exact isFloat.tokenizes read_right
  · obtain ⟨found, taken, right, -⟩ := literal.taken float
    exact right read_right ▸ taken.tokenizes

/-- What becomes of a number whose zero is misread. -/
theorem NumberLiteral.misread (literal : NumberLiteral cls w) (misread : MisreadZero cls w) :
    cls = .octalInteger ∧ ReadAs w .decimalInteger ∨
      cls = .decimalFloatingPoint ∧
        (tokenize .strict (.text (w ++ semicolon))).tokens.head?.map Token.cls = some .octalInteger := by
  have plain := literal.plain
  obtain ⟨zero, ⟨rfl, second⟩ | ⟨rfl, second⟩⟩ := misread
  · obtain ⟨found, taken, -, mistaken⟩ := literal.taken (by decide)
    obtain rfl := mistaken ⟨zero, .inl ⟨rfl, second⟩⟩
    exact .inl ⟨rfl, taken.tokenizes.tokenize plain⟩
  · obtain ⟨more, rfl⟩ := head?_eq_some_iff.1 zero
    cases more with
    | nil => cases second
    | cons d more => exact .inr ⟨rfl, head_cls_of_octal second (unescapeFrom_plain plain []) .strict⟩

theorem NumberLiteral.not_readAs (literal : NumberLiteral cls w) (misread : MisreadZero cls w) : ¬ReadAs w cls := by
  rintro ⟨tokens, reads, spelled⟩
  rcases literal.misread misread with ⟨rfl, tokens', reads', spelled'⟩ | ⟨rfl, first⟩
  · have same : tokens = tokens' := congrArg Lexed.tokens (reads.symm.trans reads')
    subst same
    rw [spelled] at spelled'
    cases spelled'
  · have cls_first : tokens.head?.map Token.cls = some .decimalFloatingPoint := by
      have heads := congrArg (·.head?.map Prod.fst) spelled
      rwa [head?_map, Option.map_map] at heads
    rw [reads, cls_first] at first
    cases first

end

end Number

end Lexer

open Lexer Number in
/-- **Number literals.** In front of a semicolon a number of the language is read as one token of its class, and the
semicolon as another, exactly when its zero is not misread. Otherwise it is an octal number, which becomes a decimal
one, or a floating point number, the start of which becomes an octal one. -/
theorem tokenize_numberLiteral_iff {cls : TokenClass} {w : Text} (literal : NumberLiteral cls w) :
    (ReadAs w cls ↔ ¬MisreadZero cls w) ∧
      (MisreadZero cls w →
        cls = .octalInteger ∧ ReadAs w .decimalInteger ∨
          cls = .decimalFloatingPoint ∧
            (tokenize .strict (.text (w ++ semicolon))).tokens.head?.map Token.cls = some .octalInteger) :=
  ⟨⟨fun reads misread => literal.not_readAs misread reads, literal.readAs⟩, literal.misread⟩

open Lexer Number in
theorem tokenize_numberLiteral_hexFloat : NumberLiteral .hexFloatingPoint (Text.ofString "0X1_F.e8p-1_0f") ∧
      ReadAs (Text.ofString "0X1_F.e8p-1_0f") .hexFloatingPoint := by
  have isWhole : Digits isHex (ofString "1_F") := @Digits.more _ _ _ (ofString "_") rfl (by decide) rfl
  have isFraction : Digits isHex (ofString "e8") := @Digits.more _ _ _ [] rfl (by decide) rfl
  have isDigits : Digits isDecimal (ofString "1_0") := @Digits.more _ _ _ (ofString "_") rfl (by decide) rfl
  have isExponent : Exponent "pP" (ofString "p-1_0") :=
    @Exponent.signed _ _ (ofString "-") _ rfl (.inr ⟨_, rfl, rfl⟩) isDigits
  have literal : NumberLiteral .hexFloatingPoint (ofString "0X1_F.e8p-1_0f") :=
    .hexFloat (.exponent (@HexSignificand.fraction 'X'.toNat _ _ rfl (.inr isWhole) isFraction) isExponent
      (.inr ⟨'f'.toNat, rfl, rfl⟩))
  refine ⟨literal, (tokenize_numberLiteral_iff literal).1.2 ?_⟩
  rintro ⟨-, ⟨⟨⟩, -⟩ | ⟨⟨⟩, -⟩⟩

open Lexer Number in
/-- Numbers of the language that are not read as such: one is cut behind its octal digits, the other is classed as a
decimal number. -/
theorem not_readAs_leading_zero : (NumberLiteral .decimalFloatingPoint (Text.ofString "01.5") ∧
        ¬ReadAs (Text.ofString "01.5") .decimalFloatingPoint) ∧
      NumberLiteral .octalInteger (Text.ofString "0_7") ∧ ¬ReadAs (Text.ofString "0_7") .octalInteger ∧
        ReadAs (Text.ofString "0_7") .decimalInteger := by
  have float : NumberLiteral .decimalFloatingPoint (ofString "01.5") :=
    .decimalFloat (@DecimalFloat.whole (ofString "01") (ofString "5") [] []
      (@Digits.more _ _ _ [] rfl (by decide) rfl) (.inr (.one rfl)) (.inl rfl) (.inl rfl))
  have octal : NumberLiteral .octalInteger (ofString "0_7") :=
    @NumberLiteral.octal (ofString "0_7") []
      (@OctalNumeral.underscores (ofString "_") _ ⟨by decide, by decide⟩ (.one rfl)) (.inl rfl)
  have misread : MisreadZero .octalInteger (ofString "0_7") := ⟨rfl, .inl ⟨rfl, rfl⟩⟩
  refine ⟨⟨float, float.not_readAs ⟨rfl, .inr ⟨rfl, rfl⟩⟩⟩, octal, octal.not_readAs misread, ?_⟩
  rcases octal.misread misread with ⟨-, reads⟩ | ⟨⟨⟩, -⟩
  exact reads

end JavaSource

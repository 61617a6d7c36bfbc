import JavaSource.Proofs.Lexer.Words

/-!
# What the readers of numbers take

A number is of one of the `Number.classes`, it ends with the text at the latest, and no other characters stand in it
than those of `Number.characters`, whatever its radix and whatever is wrong with it: `Number.read_isNumber`. So it
stands on one line, and no backslash is in it.
-/

namespace JavaSource.Lexer

open List

namespace Number

def characters : Text := Text.ofString "0123456789abcdefABCDEF_lLxXpP.+-"

variable {c : CodePoint} {n : Nat} {text : Text}

theorem mem_characters (digit : isHex c = true) : c ∈ characters := by
  have small : ∀ d < 103, isHex d = true → d ∈ characters := by decide
  refine small c ?_ digit
  simp only [isHex, isDecimal, Bool.or_eq_true, Bool.and_eq_true, decide_eq_true_eq] at digit
  exact Nat.lt_succ_of_le (by rcases digit with (digit | digit) | digit <;> exact Nat.le_trans digit.2 (by decide))

theorem isHex_of_isDecimal (digit : isDecimal c = true) : isHex c = true := by
  simp [isHex, digit]

theorem isDecimal_of_isOctal (digit : isOctal c = true) : isDecimal c = true := by
  simp only [isOctal, isDecimal, Bool.and_eq_true, decide_eq_true_eq] at digit ⊢
  exact ⟨digit.1, Nat.le_trans digit.2 (by decide)⟩

theorem isHex_of_isOctal (digit : isOctal c = true) : isHex c = true :=
  isHex_of_isDecimal (isDecimal_of_isOctal digit)

theorem isHex_of_isBinary (digit : isBinary c = true) : isHex c = true := by
  rcases Bool.or_eq_true_iff.1 digit with same | same
  · rw [eq_of_beq same]
    decide
  · rw [eq_of_beq same]
    decide

def classes : List TokenClass :=
  [.decimalInteger, .octalInteger, .binaryInteger, .hexInteger, .decimalFloatingPoint, .hexFloatingPoint]

/-- The text is that long, and its first characters are those of numbers. -/
structure Within (text : Text) (n : Nat) : Prop where
  le : n ≤ text.length
  among : ∀ c ∈ text.take n, c ∈ characters

theorem Within.take {front : Text} (clean : ∀ c ∈ front, c ∈ characters) (rest : Text) :
    Within (front ++ rest) front.length := by
  refine ⟨(prefix_append front rest).length_le, ?_⟩
  rwa [take_left]

variable {s : String}

theorem Within.succ (clean : Within text n) (here : isAt text n s = true)
    (sub : ∀ c ∈ Text.ofString s, c ∈ characters) : Within text (n + 1) := by
  obtain ⟨c, found, isMark⟩ := (Option.any_eq_true _ _).1 here
  refine ⟨(List.getElem?_eq_some_iff.1 found).1, fun d mem => ?_⟩
  rw [take_add_one, mem_append, found] at mem
  rcases mem with mem | mem
  · exact clean.among d mem
  · rw [mem_singleton.1 mem]
    exact sub c (contains_iff_mem.1 isMark)

theorem Within.add {m : Nat} (clean : Within text n) (later : Within (text.drop n) m) : Within text (n + m) := by
  have length := later.le
  rw [length_drop] at length
  refine ⟨Nat.add_le_of_le_sub' clean.le length, fun c mem => ?_⟩
  rw [take_add, mem_append] at mem
  exact mem.elim (clean.among c) (later.among c)

variable {cls : TokenClass}

theorem ofLength_le_length (nonempty : 1 ≤ text.length)
    (le : n ≤ text.length) : (Lexeme.ofLength cls n).further + 1 ≤ text.length := by
  cases n with
  | zero => exact nonempty
  | succ n => exact le

/-- A lexeme has a first character, whatever its reader counted. -/
theorem Within.ofLength {rest : Text} (first : c ∈ characters) (clean : Within (c :: rest) n) (cls : TokenClass) :
    Within (c :: rest) ((Lexeme.ofLength cls n).further + 1) := by
  refine ⟨ofLength_le_length (Nat.le_add_left 1 _) clean.le, ?_⟩
  cases n with
  | zero =>
    rintro d (_ | ⟨_, ⟨⟩⟩)
    exact first
  | succ n => exact clean.among

/-! ## What it takes to be read -/

theorem bind_eq_ok {α β : Type} {read : Except Fault α} {f : α → Except Fault β} {y : β}
    (ok : read.bind f = .ok y) : ∃ x, read = .ok x ∧ f x = .ok y := by
  cases read with
  | error e => cases ok
  | ok x => exact ⟨x, rfl, ok⟩

theorem map_eq_ok {α β : Type} {read : Except Fault α} {f : α → β} {y : β} (ok : read.map f = .ok y) :
    ∃ x, read = .ok x ∧ f x = y := by
  cases read with
  | error e => cases ok
  | ok x => exact ⟨x, rfl, Except.ok.inj ok⟩

variable {lexeme : Lexeme}

theorem plain_eq_ok {number : Except Fault (TokenClass × Nat)}
    (ok : (plain number).outcome = .ok lexeme) : ∃ cls n, number = .ok (cls, n) ∧ Lexeme.ofLength cls n = lexeme := by
  obtain ⟨⟨cls, n⟩, ok, same⟩ := map_eq_ok ok
  exact ⟨cls, n, ok, same⟩

/-- The end of the exponent of a decimal number, if there is one at `n`. -/
def exponentEnd (text : Text) (n : Nat) : Except Fault Nat :=
  if isAt text n "eE" then digitsAt isDecimal text (optional text (n + 1) "-+") else .ok n

theorem decimal_eq (text : Text) : decimal text = (digits isDecimal text).bind fun k =>
      if isAt text k ".eEfFdD" then
        (fraction isDecimal text k).bind fun m =>
          (exponentEnd text m).map fun e => (.decimalFloatingPoint, optional text e "fFdD")
      else .ok (.decimalInteger, k) := by
  simp only [decimal, exponentEnd, bind, Except.bind, pure, Except.pure]
  cases digits isDecimal text with
  | error f => rfl
  | ok k =>
    cases goesOn : isAt text k ".eEfFdD" with
    | false => simp [goesOn]
    | true =>
      simp only [goesOn, Bool.not_true, Bool.false_eq_true, if_false, if_true]
      cases fraction isDecimal text k with
      | error f => rfl
      | ok m =>
        dsimp only
        split
        · cases digitsAt isDecimal text (optional text (m + 1) "-+") <;> rfl
        · rfl

section

variable {isDigit : CodePoint → Bool} {text : Text} {n m : Nat}

/-- Digits and underscores are characters of numbers, and so is the mark behind them. -/
theorem within_digits (hex : ∀ c, isDigit c = true → isHex c = true) (read : digits isDigit text = .ok n) :
    Within text n := by
  obtain ⟨run, between, rest, rfl, each, -, low, -, length⟩ := digits_run read
  have clean : Within (run ++ (between ++ rest)) run.length := by
    refine .take (fun c mem => ?_) _
    rcases each c mem with digit | rfl
    · exact mem_characters (hex c digit)
    · decide
  split at length
  · rename_i marked
    subst length
    refine clean.succ (s := "_lL") ?_ (by decide)
    rw [isAt_append]
    cases between with
    | cons d between =>
      rw [low d mem_cons_self]
      rfl
    | nil =>
      obtain ⟨c, here, isMark⟩ := (Option.any_eq_true _ _).1 marked
      have marks : ∀ c ∈ Text.ofString "lL", Text.oneOf "_lL" c = true := by decide
      rw [nil_append, here]
      exact marks c (contains_iff_mem.1 isMark)
  · exact length ▸ clean

theorem within_optional (clean : Within text n) (sub : ∀ c ∈ Text.ofString s, c ∈ characters) :
    Within text (optional text n s) := by
  unfold optional
  split
  · rename_i here
    exact clean.succ here sub
  · exact clean

theorem within_digitsAt (hex : ∀ c, isDigit c = true → isHex c = true) (clean : Within text n)
    (read : digitsAt isDigit text n = .ok m) : Within text m := by
  obtain ⟨k, taken, rfl⟩ := map_eq_ok read
  exact clean.add (within_digits hex taken)

theorem within_fraction (hex : ∀ c, isDigit c = true → isHex c = true) (clean : Within text n)
    (read : fraction isDigit text n = .ok m) : Within text m := by
  unfold fraction at read
  split at read
  · rename_i dot
    exact within_digitsAt hex (clean.succ dot (by decide)) read
  · cases read
    exact clean

/-- The digits of an exponent, with or without a sign before them. -/
theorem within_signed (clean : Within text n) (read : digitsAt isDecimal text (optional text n "-+") = .ok m) :
    Within text m :=
  within_digitsAt (fun _ => isHex_of_isDecimal) (within_optional clean (by decide)) read

theorem within_exponentValue (clean : Within text n) (read : exponentValue text n = .ok m) : Within text m := by
  obtain ⟨k, taken, rfl⟩ := map_eq_ok read
  exact within_optional (within_signed clean taken) (by decide)

theorem within_exponentEnd (clean : Within text n) (read : exponentEnd text n = .ok m) : Within text m := by
  unfold exponentEnd at read
  split at read
  · rename_i mark
    exact within_signed (clean.succ mark (by decide)) read
  · cases read
    exact clean

/-- A decimal number is of the class of integers or of floating point numbers. -/
theorem decimal_ok (read : decimal text = .ok (cls, n)) : cls ∈ classes ∧ Within text n := by
  rw [decimal_eq] at read
  obtain ⟨k, whole, read⟩ := bind_eq_ok read
  have clean := within_digits (fun _ => isHex_of_isDecimal) whole
  split at read
  · obtain ⟨m, frac, read⟩ := bind_eq_ok read
    obtain ⟨e, power, same⟩ := map_eq_ok read
    cases same
    have mantissa := within_fraction (fun _ => isHex_of_isDecimal) clean frac
    exact ⟨by decide, within_optional (within_exponentEnd mantissa power) (by decide)⟩
  · cases read
    exact ⟨by decide, clean⟩

end

/-! ## Numbers -/

/-- The lexeme is of the class of a number, and all its characters are those of numbers. -/
structure IsNumber (text : Text) (lexeme : Lexeme) : Prop where
  cls : lexeme.cls ∈ classes
  within : Within text (lexeme.further + 1)

theorem IsNumber.literal (number : IsNumber text lexeme) : lexeme.cls.isA .literal = true :=
  (by decide : ∀ cls ∈ classes, cls.isA .literal = true) _ number.cls

section

variable {c : CodePoint} {rest : Text} {lexeme : Lexeme}

/-- The class of a number and its length, as the reader of its kind counts it: from the first character, or behind the
mark of its base, to the end of the last of its parts. -/
inductive Counted (text : Text) : TokenClass → Nat → Prop where
  | decimal {cls : TokenClass} {n : Nat} : decimal text = .ok (cls, n) → Counted text cls n
  | octal {n : Nat} : digitsAt isOctal text 1 = .ok n → Counted text .octalInteger n
  | binary {n : Nat} : isAt text 1 "bB" = true → digitsAt isBinary text 2 = .ok n → Counted text .binaryInteger n
  | hex {n : Nat} : isAt text 1 "xX" = true → digitsAt isHex text 2 = .ok n → Counted text .hexInteger n
  | hexFloat {k m n : Nat} : isAt text 1 "xX" = true → digitsAt isHex text 2 = .ok k → fraction isHex text k = .ok m →
    exponentValue text (optional text m "pP") = .ok n → Counted text .hexFloatingPoint n

theorem counted_plain {number : Except Fault (TokenClass × Nat)} (found : (plain number).outcome = .ok lexeme)
    (counted : ∀ {cls n}, number = .ok (cls, n) → Counted text cls n) :
    ∃ n, Counted text lexeme.cls n ∧ .ofLength lexeme.cls n = lexeme := by
  obtain ⟨cls, n, ok, rfl⟩ := plain_eq_ok found
  exact ⟨n, counted ok, rfl⟩

theorem hexExponent_eq_ok (found : (hexExponent text n).outcome = .ok lexeme) :
    ∃ m, exponentValue text (optional text n "pP") = .ok m ∧ .ofLength .hexFloatingPoint m = lexeme := by
  unfold hexExponent at found
  split at found
  · rename_i mark
    rw [optional, if_pos mark]
    exact map_eq_ok found
  · rename_i noMark
    rw [optional, if_neg noMark]
    split at found
    · cases found
    · exact map_eq_ok found

theorem counted_hex (mark : isAt text 1 "xX" = true) (found : (hex text).outcome = .ok lexeme) :
    ∃ n, Counted text lexeme.cls n ∧ .ofLength lexeme.cls n = lexeme := by
  unfold Number.hex at found
  split at found
  · cases found
  rename_i k whole
  split at found
  · cases found
    exact ⟨k, .hex mark whole, rfl⟩
  split at found
  · cases found
  · rename_i m frac
    obtain ⟨n, power, rfl⟩ := hexExponent_eq_ok found
    exact ⟨n, .hexFloat mark whole frac power, rfl⟩

/-- A number is counted by the reader of its kind. -/
theorem counted_of_read (found : (read text).outcome = .ok lexeme) :
    ∃ n, Counted text lexeme.cls n ∧ .ofLength lexeme.cls n = lexeme := by
  unfold read at found
  split at found
  · split at found
    · cases found
    split at found
    · rename_i mark
      exact counted_hex mark found
    split at found
    · rename_i mark
      refine counted_plain found fun ok => ?_
      obtain ⟨n, taken, ⟨⟩⟩ := map_eq_ok ok
      exact .binary mark taken
    split at found
    · refine counted_plain found fun ok => ?_
      obtain ⟨n, taken, ⟨⟩⟩ := map_eq_ok ok
      exact .octal taken
    · exact counted_plain found .decimal
  · exact counted_plain found .decimal

/-- What is counted is of the class of a number, and all its characters are those of numbers. -/
theorem Counted.isNumber (first : c ∈ characters) (counted : Counted (c :: rest) cls n) :
    IsNumber (c :: rest) (.ofLength cls n) := by
  have one : Within (c :: rest) 1 := @Within.take [c] (by simpa using first) rest
  suffices cls ∈ classes ∧ Within (c :: rest) n from ⟨this.1, .ofLength first this.2 cls⟩
  cases counted with
  | decimal read => exact decimal_ok read
  | octal taken => exact ⟨by decide, within_digitsAt (fun _ => isHex_of_isOctal) one taken⟩
  | binary mark taken => exact ⟨by decide, within_digitsAt (fun _ => isHex_of_isBinary) (one.succ mark (by decide)) taken⟩
  | hex mark taken => exact ⟨by decide, within_digitsAt (fun _ => id) (one.succ mark (by decide)) taken⟩
  | hexFloat mark whole frac power =>
    have mantissa := within_fraction (fun _ => id) (within_digitsAt (fun _ => id) (one.succ mark (by decide)) whole) frac
    exact ⟨by decide, within_exponentValue (within_optional mantissa (by decide)) power⟩

theorem decimal_isNumber (first : c ∈ characters) (found : (plain (decimal (c :: rest))).outcome = .ok lexeme) :
    IsNumber (c :: rest) lexeme := by
  obtain ⟨n, counted, same⟩ := counted_plain found .decimal
  exact same ▸ counted.isNumber first

/-- **Every number** that is read is of the class of a number, with the characters of numbers only. -/
theorem read_isNumber (first : c ∈ characters) (found : (read (c :: rest)).outcome = .ok lexeme) :
    IsNumber (c :: rest) lexeme := by
  obtain ⟨n, counted, same⟩ := counted_of_read found
  exact same ▸ counted.isNumber first

end

end Number

end JavaSource.Lexer

import JavaSource.Proofs.Lexer.NumberSpacing
import JavaSource.Proofs.Lexer.Positions

/-!
# A blank behind a lexeme

Every reader looks at the text behind its lexeme, and operators at up to three characters of it. None of that matters
if a blank is put there: `lexeme?_insert` says that the lexeme in front of the reader stays what it is where a blank is
inserted right behind it or anywhere later, and `comment?_insert` and `comment?_append` say the same of comments. Apart
from misread digits there is one exception: a point before a digit of another script is read as a number, though no
digit of it is taken.
-/

namespace JavaSource.Lexer

open List Text Vocabulary Number Quotation

/-! ## Literals, words and operators -/

variable {quote c b : CodePoint} {state : Quotation.State} {text x y back a : Text} {read n : Nat}

theorem eq_of_next {otherwise : Quotation.State} (ends : Quotation.next quote c otherwise = none) :
    c = quote := by
  unfold Quotation.next at ends
  split at ends
  · cases ends
  split at ends
  · rename_i isQuote
    exact eq_of_beq isQuote
  · cases ends

theorem scan_closed (closed : (scan quote read state text).2 = some n) :
    ∃ k, n = read + (k + 1) ∧ text[k]? = some quote := by
  have here {read : Nat} {c : CodePoint} (rest : Text) (isQuote : c = quote) (closed : some (read + 1) = some n) :
      ∃ k, n = read + (k + 1) ∧ (c :: rest)[k]? = some quote := by
    cases closed
    exact ⟨0, rfl, congrArg some isQuote⟩
  have later {read : Nat} (c : CodePoint) {rest : Text}
      (closed : ∃ k, n = read + 1 + (k + 1) ∧ rest[k]? = some quote) :
      ∃ k, n = read + (k + 1) ∧ (c :: rest)[k]? = some quote := by
    obtain ⟨k, rfl, found⟩ := closed
    exact ⟨k + 1, by omega, found⟩
  fun_induction scan quote read state text with
  | case1 => cases closed
  | case2 read c rest state more ih => exact later c (ih closed)
  | case3 read c rest ends => exact here rest (eq_of_next ends) closed
  | case4 read c rest known ih => exact later c (ih closed)
  | case5 read c rest unknown long ih => exact later c (ih closed)
  | case6 read c rest unknown noLong short ih => exact later c (ih closed)
  | case7 read c rest unknown noLong noShort remarks length scanned ih => exact later c (ih (scanned ▸ closed))
  | case8 read c rest octal ih => exact later c (ih closed)
  | case9 read c rest noOctal state more ih => exact later c (ih closed)
  | case10 read c rest noOctal ends => exact here rest (eq_of_next ends) closed
  | case11 read c rest state more ih => exact later c (ih closed)
  | case12 read c rest ends => exact here rest (eq_of_next ends) closed

theorem lt_of_scan (closed : (scan quote read state text).2 = some n) : read < n := by
  obtain ⟨k, rfl, -⟩ := scan_closed closed
  omega

/-- A literal that is closed does not depend on what follows. -/
theorem scan_append {remarks : List Remark} (closed : scan quote read state (x ++ y) = (remarks, some n))
    (le : n ≤ read + x.length) (z : Text) : scan quote read state (x ++ z) = (remarks, some n) := by
  induction x generalizing read state remarks with
  | nil => exact absurd (lt_of_scan (congrArg Prod.snd closed)) (Nat.not_lt.2 le)
  | cons c x ih =>
    rw [length_cons] at le
    have later {state : Quotation.State} {remarks : List Remark}
        (closed : scan quote (read + 1) state (x ++ y) = (remarks, some n)) :
        scan quote (read + 1) state (x ++ z) = (remarks, some n) := ih closed (by omega)
    have plain (closed : scan quote read .plain (c :: x ++ y) = (remarks, some n)) :
        scan quote read .plain (c :: x ++ z) = (remarks, some n) := by
      simp only [cons_append, scan] at closed ⊢
      split at closed
      · exact later closed
      · exact closed
    cases state with
    | plain => exact plain closed
    | escape =>
      rw [cons_append, scan] at closed ⊢
      refine ite_eq_of closed (fun known closed => ⟨known, later closed⟩) fun unknown closed => ⟨unknown, ?_⟩
      refine ite_eq_of closed (fun long closed => ⟨long, later closed⟩) fun noLong closed => ⟨noLong, ?_⟩
      refine ite_eq_of closed (fun short closed => ⟨short, later closed⟩) fun noShort closed => ⟨noShort, ?_⟩
      obtain ⟨rfl, length⟩ := Prod.mk.inj closed
      rw [later (Prod.ext rfl length)]
    | longOctal =>
      rw [cons_append, scan] at closed ⊢
      refine ite_eq_of closed (fun octal closed => ⟨octal, later closed⟩) fun noOctal closed => ⟨noOctal, ?_⟩
      split at closed
      · exact later closed
      · exact closed
    | shortOctal => exact plain closed

variable {lexeme : Lexeme}

theorem quotation_insert
    (read : Quotation.read quote (x ++ y) = { outcome := .ok lexeme }) (le : lexeme.further ≤ x.length) (z : Text) :
    Quotation.read quote (x ++ z) = { outcome := .ok lexeme } := by
  unfold Quotation.read at read
  split at read
  · rename_i remarks n closed
    obtain rfl : remarks = [] := congrArg Reading.remarks read
    obtain rfl := Except.ok.inj (congrArg Reading.outcome read)
    rw [Quotation.read, scan_append closed (by simpa using le) z]
  · have remarks := congrArg Reading.remarks read
    simp at remarks

theorem takeWhile_insert {P : CodePoint → Bool} (ends : P b = false)
    (le : ((a ++ back).takeWhile P).length ≤ a.length) (more : Text) :
    (a ++ b :: more).takeWhile P = (a ++ back).takeWhile P := by
  induction a with
  | nil =>
    rw [length_eq_zero_iff.1 (Nat.le_zero.1 le), nil_append, takeWhile_cons_of_neg (by simp [ends])]
  | cons c a ih =>
    cases holds : P c with
    | false => rw [cons_append, cons_append, takeWhile_cons_of_neg (by simp [holds]),
        takeWhile_cons_of_neg (by simp [holds])]
    | true =>
      rw [cons_append, takeWhile_cons_of_pos holds, length_cons, length_cons] at le
      rw [cons_append, cons_append, takeWhile_cons_of_pos holds, takeWhile_cons_of_pos holds,
        ih (Nat.le_of_succ_le_succ le)]

theorem leadingOperator?_insert (apart : ∀ sign ∈ operators, b ∉ sign)
    (le : ∀ op ∈ leadingOperator? (a ++ back), op.length ≤ a.length) (more : Text) :
    leadingOperator? (a ++ b :: more) = leadingOperator? (a ++ back) := by
  rw [leadingOperator?_append apart]
  unfold leadingOperator? at le ⊢
  generalize operators = signs at le
  induction signs with
  | nil => rfl
  | cons sign signs ih =>
    rw [find?_cons] at le
    rw [find?_cons, find?_cons]
    cases starts : sign.isPrefixOf (a ++ back) with
    | false =>
      have starts' : sign.isPrefixOf a = false := by
        refine Bool.eq_false_iff.2 fun also => Bool.eq_false_iff.1 starts ?_
        exact isPrefixOf_iff_prefix.2 ((List.isPrefixOf_iff_prefix.1 also).trans (prefix_append a back))
      rw [starts] at le
      rw [starts', ih le]
    | true =>
      rw [starts] at le
      have starts' : sign.isPrefixOf a = true := by
        rw [List.isPrefixOf_iff_prefix] at starts ⊢
        exact prefix_of_prefix_length_le starts (prefix_append a back) (le sign rfl)
      rw [starts']

theorem foreign_of_blank (blank : isBlank b = true) : Foreign b where
  number := (by decide : ∀ b ∈ blanks, b ∉ characters) b (mem_blanks blank)
  operator := (by decide : ∀ b ∈ blanks, ∀ op ∈ operators, b ∉ op) b (mem_blanks blank)
  part := (by decide +kernel : ∀ b ∈ blanks, isIdentifierPart b = false) b (mem_blanks blank)

theorem isDigit_of_blank (blank : isBlank b = true) : isDigit b = false :=
  (by decide +kernel : ∀ b ∈ blanks, isDigit b = false) b (mem_blanks blank)

theorem notMem_of_blank (blank : isBlank b = true) : b ∉ ofString "/*" :=
  (by decide : ∀ b ∈ blanks, b ∉ ofString "/*") b (mem_blanks blank)

section

variable {c b : CodePoint} {a back : Text} {lexeme : Lexeme}

theorem operatorReading?_insert (apart : ∀ sign ∈ operators, b ∉ sign)
    (le : ∀ op ∈ leadingOperator? (c :: a ++ back), op.length ≤ a.length + 1) (more : Text) :
    operatorReading? (c :: a ++ b :: more) = operatorReading? (c :: a ++ back) := by
  rw [operatorReading?, operatorReading?, leadingOperator?_insert apart (by simpa using le)]

/-- A lexeme that is an operator is at most as long as what it is found in. -/
theorem le_of_operatorReading? (read : operatorReading? (c :: a ++ back) = some { outcome := .ok lexeme })
    (le : lexeme.further ≤ a.length) :
    ∀ op ∈ leadingOperator? (c :: a ++ back), op.length ≤ a.length + 1 := by
  intro op found
  obtain ⟨op', found', same⟩ := Option.map_eq_some_iff.1 read
  obtain rfl := Option.some.inj (found.symm.trans found')
  obtain rfl := Except.ok.inj (congrArg Reading.outcome same)
  exact Nat.le_trans (le_ofLength .operator op.length) (Nat.succ_le_succ le)

/-- Of all operators only the ellipsis starts with a point. -/
theorem ellipsis_eq (text : Text) :
    ((ofString "..").isPrefixOf text && (operatorReading? text).isSome) = (ofString "...").isPrefixOf text := by
  rw [Bool.eq_iff_iff, Bool.and_eq_true, isPrefixOf_iff_prefix, isPrefixOf_iff_prefix, operatorReading?,
    Option.isSome_map, leadingOperator?, find?_isSome]
  constructor
  · rintro ⟨dots, op, mem, starts⟩
    have points : ∀ op ∈ operators, op.head? = some '.'.toNat → op = ofString "..." := by decide
    rw [List.isPrefixOf_iff_prefix] at starts
    refine points op mem ?_ ▸ starts
    obtain ⟨back, rfl⟩ := dots
    cases op with
    | nil => exact absurd mem (by decide)
    | cons c op => exact congrArg some (cons_prefix_cons.1 starts).1
  · intro starts
    exact ⟨.trans (by decide) starts, ofString "...", by decide, isPrefixOf_iff_prefix.2 starts⟩

/-- The test for an ellipsis comes out as before. -/
theorem ellipsis_insert (foreign : Foreign b) (read : lexeme? c (a ++ back) = some { outcome := .ok lexeme })
    (le : lexeme.further ≤ a.length) (more : Text) :
    (ofString "...").isPrefixOf (c :: a ++ b :: more) = (ofString "...").isPrefixOf (c :: a ++ back) := by
  have noPoint : b ∉ ofString "..." := fun mem =>
    foreign.number ((by decide : ∀ c ∈ ofString "...", c ∈ characters) b mem)
  rw [isPrefixOf_append noPoint, Bool.eq_iff_iff, isPrefixOf_iff_prefix, isPrefixOf_iff_prefix]
  refine ⟨fun starts => starts.trans (prefix_append _ _), fun starts => ?_⟩
  refine prefix_of_prefix_length_le starts (prefix_append _ _) (Nat.succ_le_succ (Nat.le_trans ?_ le))
  obtain ⟨back', split⟩ := starts
  rw [cons_append] at split
  generalize a ++ back = rest at read split
  cases split
  cases read
  exact Nat.le_refl 2

/-- **A blank behind a lexeme**, or later, does not change it, nor does any other character that no lexeme goes on
with. -/
theorem lexeme?_insert (foreign : Foreign b) (noDigit : isDigit b = false)
    (read : lexeme? c (a ++ back) = some { outcome := .ok lexeme }) (le : lexeme.further ≤ a.length)
    (right : lexeme.cls ∈ Number.classes → ¬ Number.Misread (c :: a ++ back) (lexeme.further + 1))
    (point : a = [] → c = '.'.toNat → ∀ d ∈ back.head?, isDigit d = true → Number.isDecimal d = true)
    (more : Text) : lexeme? c (a ++ b :: more) = some { outcome := .ok lexeme } := by
  have le' : lexeme.further + 1 ≤ (c :: a).length := Nat.succ_le_succ le
  have ellipsis := ellipsis_insert foreign read le more
  unfold lexeme? at read ⊢
  dsimp only at read ⊢
  rw [← cons_append, ellipsis_eq] at read ⊢
  rw [ellipsis]
  have sign (read : operatorReading? (c :: a ++ back) = some { outcome := .ok lexeme }) :
      operatorReading? (c :: a ++ b :: more) = some { outcome := .ok lexeme } := by
    rw [operatorReading?_insert foreign.operator (le_of_operatorReading? read le), read]
  refine ite_eq_of read (fun is read => ⟨is, sign read⟩) fun isNot read => ⟨isNot, ?_⟩
  refine ite_eq_of read (fun is read => ⟨is, read⟩) fun isNot read => ⟨isNot, ?_⟩
  refine ite_eq_of read (fun number read => ?_) fun noNumber read => ⟨?_, ?_⟩
  · replace read := Option.some.inj read
    have mem : c ∈ Number.characters := eq_of_beq (Bool.and_eq_true_iff.1 number).1 ▸ by decide
    have cls_mem := (Number.decimal_isNumber mem (congrArg Reading.outcome read)).cls
    refine ⟨?_, congrArg some (Number.plain_decimal_insert more foreign.number read le' (right cls_mem))⟩
    cases a with
    | cons d a => exact number
    | nil =>
      -- the number would be the point alone
      obtain ⟨isPoint, digit⟩ := Bool.and_eq_true_iff.1 number
      obtain rfl := eq_of_beq isPoint
      cases back with
      | nil => cases digit
      | cons d back =>
        have long := Number.two_le_of_point (point rfl rfl d rfl digit) read
        exact absurd (Nat.le_trans long le) (Nat.not_succ_le_zero 0)
  · cases a with
    | cons d a => exact noNumber
    | nil => simp [noDigit]
  refine ite_eq_of read (fun is read => ⟨is, read⟩) fun isNot read => ⟨isNot, ?_⟩
  refine ite_eq_of read (fun quote read => ⟨quote, congrArg some (quotation_insert (Option.some.inj read) le _)⟩)
    fun isNot read => ⟨isNot, ?_⟩
  refine ite_eq_of read (fun digit read => ⟨digit, ?_⟩) fun isNot read => ⟨isNot, ?_⟩
  · replace read := Option.some.inj read
    have mem := Number.mem_characters (Number.isHex_of_isDecimal digit)
    have cls_mem := (Number.read_isNumber mem (congrArg Reading.outcome read)).cls
    exact congrArg some (Number.read_insert more foreign.number (Nat.le_add_left 1 _) read le' (right cls_mem))
  refine ite_eq_of read (fun start read => ⟨start, ?_⟩) fun isNot read => ⟨isNot, sign read⟩
  have length : ((c :: a ++ back).takeWhile isIdentifierPart).length ≤ (c :: a).length := by
    obtain rfl := Except.ok.inj (congrArg Reading.outcome (Option.some.inj read))
    exact Nat.le_trans (Number.le_ofLength _ _) le'
  rw [wordReading, takeWhile_insert foreign.part length]
  exact read

end

/-- A lexeme ends with the text at the latest. -/
theorem lexeme?_le_length {rest : Text}
    (read : lexeme? c rest = some { outcome := .ok lexeme }) : lexeme.further ≤ rest.length := by
  refine Nat.le_of_succ_le_succ (show lexeme.further + 1 ≤ (c :: rest).length from ?_)
  have nonempty : 1 ≤ (c :: rest).length := Nat.le_add_left 1 _
  generalize same : ({ outcome := .ok lexeme } : Reading) = reading at read
  have ok : reading.outcome = .ok lexeme := same ▸ rfl
  cases lexeme?_readBy read with
  | operator found =>
    obtain ⟨op, leading, rfl⟩ := Option.map_eq_some_iff.1 found
    cases ok
    rw [leadingOperator?] at leading
    have starts := find?_some leading
    exact ofLength_le_length nonempty (List.isPrefixOf_iff_prefix.1 starts).length_le
  | atSign | separator =>
    cases ok
    exact nonempty
  | point isPoint => exact (decimal_isNumber (isPoint ▸ by decide) ok).within.le
  | quotation =>
    unfold Quotation.read at ok
    split at ok
    · rename_i n closed
      cases ok
      obtain ⟨k, length, found⟩ := scan_closed (congrArg Prod.snd closed)
      obtain ⟨lt, -⟩ := List.getElem?_eq_some_iff.1 found
      rw [Nat.zero_add] at length
      exact Nat.succ_le_succ (length ▸ lt)
    · cases ok
      exact Nat.le_refl _
  | digit digit =>
    exact (read_isNumber (mem_characters (isHex_of_isDecimal digit)) ok).within.le
  | word =>
    cases ok
    exact ofLength_le_length nonempty (List.takeWhile_prefix _).length_le

theorem lexeme?_of_quote (quote : (c == '\''.toNat || c == '"'.toNat) = true) (rest : Text) :
    lexeme? c rest = some (Quotation.read c rest) := by
  rcases Bool.or_eq_true_iff.1 quote with single | double
  · obtain rfl := eq_of_beq single
    rfl
  · obtain rfl := eq_of_beq double
    rfl

/-! ## What starts no lexeme -/

theorem lexeme?_eq_none (other : c ∉ ofString ".@'\"") (separator : c ∉ separators)
    (digit : isDecimal c = false) (start : isIdentifierStart c = false)
    (operator : ∀ op ∈ operators, op.head? ≠ some c) (rest : Text) : lexeme? c rest = none := by
  have ne {d : CodePoint} (among : d ∈ ofString ".@'\"") : (c == d) = false :=
    beq_false_of_ne fun same => other (same ▸ among)
  have noOperator : operatorReading? (c :: rest) = none := by
    rw [operatorReading?, Option.map_eq_none_iff, leadingOperator?, find?_eq_none]
    intro op mem starts
    cases op with
    | nil => exact absurd mem (by decide)
    | cons d op =>
      rw [(cons_prefix_cons.1 (List.isPrefixOf_iff_prefix.1 starts)).1] at mem
      exact operator _ mem rfl
  have noSeparator : separators.contains c = false := by
    rw [← Bool.not_eq_true, contains_iff_mem]
    exact separator
  rw [lexeme?, noOperator, ne (by decide), ne (by decide), ne (by decide), ne (by decide), noSeparator, digit, start]
  simp

/-- Whether no code point is in both of two tables. -/
def apart : List (CodePoint × CodePoint) → List (CodePoint × CodePoint) → Bool
  | [], _ => true
  | (lo, hi) :: ranges, others => let later := others.dropWhile fun other => Nat.blt other.2 lo
    later.head?.all (fun other => Nat.blt hi other.1) && apart ranges later

variable {ranges : List (CodePoint × CodePoint)}

theorem inRanges_dropWhile {lo : CodePoint} (le : lo ≤ c)
    (among : inRanges ranges c = true) :
    inRanges (ranges.dropWhile fun other => Nat.blt other.2 lo) c = true := by
  induction ranges with
  | nil => exact among
  | cons range ranges ih =>
    rw [dropWhile_cons]
    split
    · rename_i below
      rw [Nat.blt_eq] at below
      simp only [inRanges, Bool.and_eq_true, Bool.or_eq_true, decide_eq_true_eq] at among
      exact ih (among.2.resolve_left (Nat.not_le.2 (Nat.lt_of_lt_of_le below le)))
    · exact among

theorem inRanges_of_apart {others : List (CodePoint × CodePoint)} (tables : apart ranges others = true)
    (among : inRanges ranges c = true) : inRanges others c = false := by
  induction ranges generalizing others with
  | nil => cases among
  | cons range ranges ih =>
    simp only [inRanges, Bool.and_eq_true, Bool.or_eq_true, decide_eq_true_eq] at among
    obtain ⟨le, among⟩ := among
    obtain ⟨above, later⟩ := Bool.and_eq_true_iff.1 tables
    refine Bool.eq_false_iff.2 fun also => ?_
    replace also := inRanges_dropWhile le also
    rcases among with here | among
    · generalize (others.dropWhile fun other => Nat.blt other.2 range.1) = later at above also
      cases later with
      | nil => cases also
      | cons other later =>
        simp only [head?_cons, Option.all_some, Nat.blt_eq] at above
        simp only [inRanges, Bool.and_eq_true, decide_eq_true_eq] at also
        exact absurd (Nat.le_trans also.1 here) (Nat.not_le.2 above)
    · rw [ih later among] at also
      cases also

variable {d : CodePoint}

/-- No digit starts a word. -/
theorem not_isIdentifierStart_of_isDigit (digit : isDigit d = true) :
    isIdentifierStart d = false := by
  have letter := inRanges_of_apart (by decide +kernel : apart digitRanges letterRanges = true) digit
  have sign := inRanges_of_apart (by decide +kernel : apart digitRanges identifierSignRanges = true) digit
  rw [isIdentifierStart, isLetter, letter, sign]
  rfl

/-- Of all digits only the ten of the decimal numbers start anything. -/
theorem nothing_of_isDigit (digit : isDigit d = true) (other : isDecimal d = false)
    (rest : Text) : isBlank d = false ∧ comment? (d :: rest) = none ∧ lexeme? d rest = none := by
  have beyond : 128 ≤ d := by
    obtain ⟨range, mem, le, ge⟩ := exists_range_of_inRanges digit
    have tables : ∀ range ∈ digitRanges, range = (48, 57) ∨ 128 ≤ range.1 := by decide
    rcases tables range mem with rfl | high
    · simp [isDecimal, le, ge] at other
    · exact Nat.le_trans high le
  have notMem {s : Text} (low : ∀ c ∈ s, c < 128) : d ∉ s := fun mem => Nat.not_lt.2 beyond (low d mem)
  have slash : d ≠ '/'.toNat := fun same => absurd beyond (same ▸ by decide)
  refine ⟨inRanges_of_apart (by decide +kernel : apart digitRanges blankRanges = true) digit,
    comment?_of_ne slash rest, lexeme?_eq_none (notMem (by decide))
      (notMem (by decide)) other (not_isIdentifierStart_of_isDigit digit) ?_ rest⟩
  intro op mem head
  have low : ∀ op ∈ operators, ∀ c ∈ op.head?, c < 128 := by decide
  exact Nat.not_lt.2 beyond (low op mem d head)

/-! ## Comments -/

theorem isPrefixOf_append_of_le {sign : Text} (le : sign.length ≤ x.length) (y : Text) :
    sign.isPrefixOf (x ++ y) = sign.isPrefixOf x := by
  rw [Bool.eq_iff_iff, isPrefixOf_iff_prefix, isPrefixOf_iff_prefix]
  exact ⟨fun starts => prefix_of_prefix_length_le starts (prefix_append x y) le,
    fun starts => starts.trans (prefix_append x y)⟩

/-- What is found in the first part of a text is found there whatever follows. -/
theorem find?_append {part : Text} (nonempty : part ≠ []) (found : Text.find? part (x ++ y) = some n)
    (le : n + part.length ≤ x.length) (z : Text) : Text.find? part (x ++ z) = some n := by
  have positive : 0 < part.length := length_pos_iff.2 nonempty
  induction x generalizing n with
  | nil =>
    rw [length_nil] at le
    omega
  | cons c x ih =>
    have length : part.length ≤ (c :: x).length := Nat.le_trans (Nat.le_add_left _ n) le
    simp only [cons_append, Text.find?] at found ⊢
    rw [← cons_append, isPrefixOf_append_of_le length] at found ⊢
    split at found
    · rename_i starts
      rw [if_pos starts]
      exact found
    · rename_i other
      obtain ⟨m, later, rfl⟩ := Option.map_eq_some_iff.1 found
      rw [length_cons] at le
      rw [if_neg other, ih later (by omega)]
      rfl

theorem two_le_of_comment? (commented : comment? text = some (.closed n)) : 2 ≤ n + 1 := by
  have line : (ofString "//").length = 2 := rfl
  have block : (ofString "/*").length = 2 := rfl
  rcases comment?_closed commented with ⟨_, _, -, length, ⟨body, rfl, -⟩ | ⟨body, rfl, -⟩⟩ | ⟨body, rfl, length, -⟩
  · simp only [length_append] at length
    omega
  · simp only [length_append] at length
    omega
  · simp only [length_append] at length
    omega

/-- A comment before other text does not depend on what that is. -/
theorem comment?_append (commented : comment? (x ++ y) = some (.closed n))
    (le : n + 1 ≤ x.length) (nonempty : y ≠ []) (z : Text) : comment? (x ++ z) = some (.closed n) := by
  have length : (x ++ y).length = x.length + y.length := length_append
  have positive : 0 < y.length := length_pos_iff.2 nonempty
  have long : 2 ≤ x.length := Nat.le_trans (two_le_of_comment? commented) le
  have line (z : Text) : (ofString "//").isPrefixOf (x ++ z) = (ofString "//").isPrefixOf x :=
    isPrefixOf_append_of_le (show (ofString "//").length ≤ x.length from long) z
  have block (z : Text) : (ofString "/*").isPrefixOf (x ++ z) = (ofString "/*").isPrefixOf x :=
    isPrefixOf_append_of_le (show (ofString "/*").length ≤ x.length from long) z
  unfold comment? at commented ⊢
  rw [line, block] at commented ⊢
  rw [drop_append_of_le_length long] at commented ⊢
  split at commented
  · rename_i line
    rw [if_pos line]
    split at commented
    · rename_i m found
      cases commented
      rw [find?_append (by simp) found (by rw [length_drop, length_singleton]; omega)]
    · cases commented
      omega
  rename_i noLine
  rw [if_neg noLine]
  split at commented
  · rename_i block
    rw [if_pos block]
    split at commented
    · rename_i m found
      cases commented
      have two : (ofString "*/").length = 2 := rfl
      rw [find?_append (by decide) found (by rw [length_drop, two]; omega)]
    · cases commented
  · cases commented

theorem comment?_insert (apart : b ∉ ofString "/*")
    (uncommented : comment? (a ++ back) = none) (more : Text) : comment? (a ++ b :: more) = none := by
  have starts {sign : Text} (apart : b ∉ sign) (other : sign.isPrefixOf (a ++ back) = false) :
      sign.isPrefixOf (a ++ b :: more) = false := by
    rw [isPrefixOf_append apart]
    refine Bool.eq_false_iff.2 fun also => Bool.eq_false_iff.1 other ?_
    exact isPrefixOf_iff_prefix.2 ((List.isPrefixOf_iff_prefix.1 also).trans (prefix_append a back))
  unfold comment? at uncommented
  split at uncommented
  · split at uncommented <;> cases uncommented
  rename_i noLine
  split at uncommented
  · split at uncommented <;> cases uncommented
  rename_i noBlock
  have line : ∀ c ∈ ofString "//", c ∈ ofString "/*" := by decide
  rw [comment?, starts (fun mem => apart (line b mem)) (Bool.eq_false_iff.2 noLine),
    starts apart (Bool.eq_false_iff.2 noBlock)]
  rfl

end JavaSource.Lexer

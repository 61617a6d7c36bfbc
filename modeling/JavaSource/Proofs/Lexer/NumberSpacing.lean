import JavaSource.Proofs.Lexer.Numbers

/-!
# A blank behind a number

The readers of numbers look behind what they take, at one character or as far as underscores go. Where a blank is put
right behind a number or anywhere later, the number stays what it is: `Number.read_insert`. The exception are digits
that end with `_l`, which are misread as `Number.Misread` says.
-/

namespace JavaSource.Lexer

open List Text

namespace Number

variable {n : Nat} {a back : Text}

theorem further_ofLength {cls : TokenClass} (pos : 1 ≤ n) : (Lexeme.ofLength cls n).further + 1 = n :=
  Nat.sub_add_cancel pos

/-- An underscore was taken in place of a mark behind it. -/
def Misread (text : Text) (n : Nat) : Prop :=
  (text.take n).getLast? = some '_'.toNat ∧ isAt text n "_lL" = true

variable {s : String} {text : Text}

theorem not_misread_of_isAt (here : isAt text n s = true) (apart : ∀ c ∈ ofString s, c ∉ ofString "_lL") :
    ¬ Misread text n := by
  rintro ⟨-, also⟩
  obtain ⟨c, isMark, dropped⟩ := drop_of_isAt here
  rw [isAt_eq_drop, dropped] at also
  exact apart c (contains_iff_mem.1 isMark) (contains_iff_mem.1 also)

theorem not_misread_of_optional (right : ¬ Misread text (optional text n s))
    (apart : ∀ c ∈ ofString s, c ∉ ofString "_lL") : ¬ Misread text n := by
  unfold optional at right
  split at right
  · rename_i here
    exact not_misread_of_isAt here apart
  · exact right

theorem Misread.of_drop {k : Nat} (misread : Misread (text.drop n) k) : Misread text (n + k) := by
  obtain ⟨last, next⟩ := misread
  refine ⟨?_, ?_⟩
  · rw [take_add, getLast?_append, last]
    rfl
  · rwa [isAt, getElem?_drop] at next

variable {rest : Text}

section

variable {isDigit : CodePoint → Bool} {a back : Text} {b : CodePoint} {n m : Nat} (more : Text)

variable {s : String} {text : Text} {cls : TokenClass} {lexeme : Lexeme}

theorem not_oneOf_of_foreign (foreign : b ∉ characters)
    (sub : ∀ c ∈ ofString s, c ∈ characters) : oneOf s b = false :=
  Bool.eq_false_iff.2 fun mem => foreign (sub b (contains_iff_mem.1 mem))

/-- The digits of a base are hexadecimal digits, and told apart from the other characters of a group. -/
structure IsBase (isDigit : CodePoint → Bool) : Prop where
  hex : ∀ c, isDigit c = true → isHex c = true
  apart : Apart isDigit

theorem isBase_isDecimal : IsBase isDecimal := ⟨fun _ => isHex_of_isDecimal, by decide⟩

theorem isBase_isHex : IsBase isHex := ⟨fun _ => id, by decide⟩

theorem isBase_isOctal : IsBase isOctal := ⟨fun _ => isHex_of_isOctal, by decide⟩

theorem isBase_isBinary : IsBase isBinary := ⟨fun _ => isHex_of_isBinary, by decide⟩

theorem isAt_insert (lt : n < a.length) (here : isAt (a ++ back) n s = true) : isAt (a ++ b :: more) n s = true := by
  rwa [isAt, getElem?_append_left lt] at here ⊢

theorem not_isAt_insert (foreign : b ∉ characters) (sub : ∀ c ∈ ofString s, c ∈ characters) (le : n ≤ a.length)
    (elsewhere : ¬ isAt (a ++ back) n s = true) : ¬ isAt (a ++ b :: more) n s = true := by
  rcases Nat.lt_or_eq_of_le le with lt | rfl
  · rwa [isAt, getElem?_append_left lt] at elsewhere ⊢
  · rw [isAt_append, head?_cons, Option.any_some, not_oneOf_of_foreign foreign sub]
    exact Bool.false_ne_true

/-- Digits are read as before where a blank is put behind them. -/
theorem digits_insert (base : IsBase isDigit) (foreign : b ∉ characters)
    (read : digits isDigit (a ++ back) = .ok n) (le : n ≤ a.length) (right : ¬ Misread (a ++ back) n) :
    digits isDigit (a ++ b :: more) = .ok n := by
  have underscore : isDigit '_'.toNat = false := base.apart _ (by decide)
  have stop : isDigit b = false ∧ b ≠ '_'.toNat := by
    refine ⟨Bool.eq_false_iff.2 fun digit => foreign (mem_characters (base.hex b digit)), ?_⟩
    rintro rfl
    exact foreign (by decide)
  have noLetter : oneOf "lL" b = false := not_oneOf_of_foreign foreign (by decide)
  obtain ⟨run, between, rest, split, each, last, low, stops, length⟩ := digits_run read
  -- what the run is followed by decides, and that is known wherever the blank goes
  have result {between tail : Text} (low : ∀ c ∈ between, c = '_'.toNat)
      (stops : ∀ d ∈ tail.head?, isDigit d = false ∧ d ≠ '_'.toNat) (nonempty : tail ≠ []) :
      digits isDigit (run ++ (between ++ tail)) =
        .ok (if tail.head?.any (oneOf "lL") then run.length + 1 else run.length) := by
    have ran := digitRun_append underscore 0 0 each last low (fun _ => rfl) stops
    rw [digits, if_neg (by simp [nonempty]), ran, Nat.zero_add]
  cases marked : rest.head?.any (oneOf "lL") with
  | false =>
    rw [marked, if_neg Bool.false_ne_true] at length
    subst length
    obtain ⟨behind, rfl, behind_eq⟩ := exists_split_of_le split le
    rw [append_assoc]
    have stop' : ∀ d ∈ (b :: more).head?, isDigit d = false ∧ d ≠ '_'.toNat := by
      rintro d ⟨⟩
      exact stop
    rcases append_eq_append_iff.1 behind_eq with ⟨later, rfl, -⟩ | ⟨tail, rfl, rest_eq⟩
    · rw [result (fun c mem => low c (mem_append_left _ mem)) stop' (cons_ne_nil _ _)]
      simp [noLetter]
    · rw [append_assoc]
      cases tail with
      | nil =>
        rw [nil_append, result low stop' (cons_ne_nil _ _)]
        simp [noLetter]
      | cons d tail =>
        subst rest_eq
        have stops' : ∀ e ∈ (d :: tail ++ b :: more).head?, isDigit e = false ∧ e ≠ '_'.toNat := stops
        rw [result low stops' (cons_ne_nil _ _)]
        exact congrArg _ (if_neg (Bool.eq_false_iff.1 marked))
  | true =>
    rw [marked, if_pos rfl] at length
    subst length
    have marks : ∀ c ∈ ofString "lL", oneOf "_lL" c = true := by decide
    obtain ⟨d, rest, rfl⟩ : ∃ d rest', rest = d :: rest' := exists_cons_of_ne_nil (by rintro rfl; cases marked)
    cases between with
    | cons u between =>
      -- the underscore is taken, and others or the mark stand behind it
      have whole : a ++ back = (run ++ [u]) ++ (between ++ d :: rest) := by simp [split]
      have taken : run.length + 1 = (run ++ [u]).length := by simp
      refine absurd ⟨?_, ?_⟩ right
      · rw [whole, taken, take_left, getLast?_concat, low u mem_cons_self]
      · rw [whole, taken, isAt_append]
        cases between with
        | nil => exact marks d (contains_iff_mem.1 marked)
        | cons e between =>
          rw [cons_append, low e (by simp)]
          rfl
    | nil =>
      have whole : a ++ back = (run ++ [d]) ++ rest := by simp [split]
      obtain ⟨behind, rfl, -⟩ := exists_split_of_le whole (by simpa using le)
      have stops' : ∀ e ∈ (d :: (behind ++ b :: more)).head?, isDigit e = false ∧ e ≠ '_'.toNat := stops
      have found := (result (forall_mem_nil _) stops' (cons_ne_nil _ _)).trans (congrArg Except.ok (if_pos marked))
      simpa using found

theorem optional_insert (foreign : b ∉ characters) (sub : ∀ c ∈ ofString s, c ∈ characters)
    (le : optional (a ++ back) n s ≤ a.length) : optional (a ++ b :: more) n s = optional (a ++ back) n s := by
  unfold optional at le ⊢
  split at le
  · rename_i here
    rw [if_pos here, if_pos (isAt_insert more le here)]
  · rename_i elsewhere
    rw [if_neg elsewhere, if_neg (not_isAt_insert more foreign sub le elsewhere)]

theorem le_optional (text : Text) (n : Nat) (s : String) : n ≤ optional text n s := by
  unfold optional
  split <;> omega

theorem le_of_digitsAt (read : digitsAt isDigit text n = .ok m) : n ≤ m := by
  obtain ⟨k, -, rfl⟩ := map_eq_ok read
  exact Nat.le_add_right n k

theorem digitsAt_insert (base : IsBase isDigit) (foreign : b ∉ characters)
    (read : digitsAt isDigit (a ++ back) n = .ok m) (le : m ≤ a.length) (right : ¬ Misread (a ++ back) m) :
    digitsAt isDigit (a ++ b :: more) n = .ok m := by
  have before : n ≤ a.length := Nat.le_trans (le_of_digitsAt read) le
  obtain ⟨k, taken, rfl⟩ := map_eq_ok read
  have right' : ¬ Misread ((a ++ back).drop n) k := fun misread => right misread.of_drop
  have le' : k ≤ (a.drop n).length := by
    rw [length_drop]
    exact Nat.le_sub_of_add_le' le
  rw [drop_append_of_le_length before] at taken right'
  rw [digitsAt, drop_append_of_le_length before, digits_insert more base foreign taken le' right']
  rfl

theorem le_of_fraction (read : fraction isDigit text n = .ok m) : n ≤ m ∧ (isAt text n "." = true → n < m) := by
  unfold fraction at read
  split at read
  · have le := le_of_digitsAt read
    exact ⟨Nat.le_of_succ_le le, fun _ => le⟩
  · rename_i noPoint
    cases read
    exact ⟨Nat.le_refl n, fun point => absurd point noPoint⟩

/-- What stands behind a mark, if there is one, is read as before where the mark is not the last before the blank. -/
theorem guarded_insert {step : Text → Nat → Except Fault Nat} (foreign : b ∉ characters)
    (sub : ∀ c ∈ ofString s, c ∈ characters)
    (read : (if isAt (a ++ back) n s = true then step (a ++ back) (n + 1) else .ok n) = .ok m) (le : m ≤ a.length)
    (behind : step (a ++ back) (n + 1) = .ok m → n + 1 ≤ m ∧ step (a ++ b :: more) (n + 1) = .ok m) :
    (if isAt (a ++ b :: more) n s = true then step (a ++ b :: more) (n + 1) else .ok n) = .ok m := by
  split at read
  · rename_i here
    obtain ⟨lt, read⟩ := behind read
    rw [if_pos (isAt_insert more (Nat.le_trans lt le) here), read]
  · rename_i elsewhere
    cases read
    rw [if_neg (not_isAt_insert more foreign sub le elsewhere)]

theorem fraction_insert (base : IsBase isDigit) (foreign : b ∉ characters)
    (read : fraction isDigit (a ++ back) n = .ok m) (le : m ≤ a.length) (right : ¬ Misread (a ++ back) m) :
    fraction isDigit (a ++ b :: more) n = .ok m :=
  guarded_insert more foreign (by decide) read le fun read =>
    ⟨le_of_digitsAt read, digitsAt_insert more base foreign read le right⟩

/-- The digits of an exponent, with or without a sign before them. -/
theorem signed_insert (foreign : b ∉ characters)
    (read : digitsAt isDecimal (a ++ back) (optional (a ++ back) n "-+") = .ok m) (le : m ≤ a.length)
    (right : ¬ Misread (a ++ back) m) :
    digitsAt isDecimal (a ++ b :: more) (optional (a ++ b :: more) n "-+") = .ok m := by
  have before := le_of_digitsAt read
  rw [optional_insert more foreign (by decide) (Nat.le_trans before le)]
  exact digitsAt_insert more isBase_isDecimal foreign read le right

theorem le_of_exponentValue (read : exponentValue text n = .ok m) : n ≤ m := by
  obtain ⟨k, taken, rfl⟩ := map_eq_ok read
  exact Nat.le_trans (le_optional _ n "-+") (Nat.le_trans (le_of_digitsAt taken) (le_optional _ k "fFdD"))

theorem exponentValue_insert (foreign : b ∉ characters) (read : exponentValue (a ++ back) n = .ok m)
    (le : m ≤ a.length) (right : ¬ Misread (a ++ back) m) : exponentValue (a ++ b :: more) n = .ok m := by
  obtain ⟨k, taken, rfl⟩ := map_eq_ok read
  have before := Nat.le_trans (le_optional (a ++ back) k "fFdD") le
  rw [exponentValue, signed_insert more foreign taken before (not_misread_of_optional right (by decide))]
  exact congrArg Except.ok (optional_insert more foreign (by decide) le)

theorem le_of_exponentEnd (read : exponentEnd text n = .ok m) : n ≤ m ∧ (isAt text n "eE" = true → n < m) := by
  unfold exponentEnd at read
  split at read
  · have le := Nat.le_trans (le_optional text (n + 1) "-+") (le_of_digitsAt read)
    exact ⟨Nat.le_of_succ_le le, fun _ => le⟩
  · rename_i noMark
    cases read
    exact ⟨Nat.le_refl n, fun mark => absurd mark noMark⟩

theorem exponentEnd_insert (foreign : b ∉ characters) (read : exponentEnd (a ++ back) n = .ok m)
    (le : m ≤ a.length) (right : ¬ Misread (a ++ back) m) :
    exponentEnd (a ++ b :: more) n = .ok m ∧ ¬ Misread (a ++ back) n := by
  refine ⟨@guarded_insert _ _ _ _ _ more "eE"
    (fun text n => digitsAt isDecimal text (optional text n "-+")) foreign (by decide) read le fun read => ?_, ?_⟩
  · exact ⟨Nat.le_trans (le_optional _ _ "-+") (le_of_digitsAt read), signed_insert more foreign read le right⟩
  · unfold exponentEnd at read
    split at read
    · rename_i mark
      exact not_misread_of_isAt mark (by decide)
    · cases read
      exact right

theorem isAt_point_or_mark (here : isAt text n ".eEfFdD" = true) :
    isAt text n "." = true ∨ isAt text n "eE" = true ∨ isAt text n "fFdD" = true := by
  have marks : ∀ c ∈ ofString ".eEfFdD",
      oneOf "." c = true ∨ oneOf "eE" c = true ∨ oneOf "fFdD" c = true := by decide
  simp only [isAt] at here ⊢
  cases found : text[n]? with
  | none =>
    rw [found] at here
    cases here
  | some c =>
    rw [found] at here
    exact marks c (contains_iff_mem.1 here)

/-- A decimal number is read as before where a blank is put behind it. -/
theorem decimal_insert (foreign : b ∉ characters) (read : decimal (a ++ back) = .ok (cls, n))
    (le : n ≤ a.length) (right : ¬ Misread (a ++ back) n) : decimal (a ++ b :: more) = .ok (cls, n) := by
  rw [decimal_eq] at read ⊢
  obtain ⟨k, whole, read⟩ := bind_eq_ok read
  split at read
  · rename_i goesOn
    obtain ⟨m, frac, read⟩ := bind_eq_ok read
    obtain ⟨e, power, same⟩ := map_eq_ok read
    obtain ⟨rfl, rfl⟩ := Prod.mk.inj same
    obtain ⟨km, point⟩ := le_of_fraction frac
    obtain ⟨me, mark⟩ := le_of_exponentEnd power
    have en := le_optional (a ++ back) e "fFdD"
    -- the whole part ends before the blank, since something of the number follows it
    have before : k < a.length := by
      rcases isAt_point_or_mark goesOn with point' | mark' | suffix'
      · have := point point'
        omega
      · rcases Nat.lt_or_eq_of_le km with lt | rfl
        · omega
        · have := mark mark'
          omega
      · rcases Nat.lt_or_eq_of_le (Nat.le_trans km me) with lt | rfl
        · omega
        · have longer : optional (a ++ back) k "fFdD" = k + 1 := if_pos suffix'
          omega
    have powerRight := not_misread_of_optional right (by decide)
    obtain ⟨power', fracRight⟩ := exponentEnd_insert more foreign power (Nat.le_trans en le) powerRight
    have frac' := fraction_insert more isBase_isDecimal foreign frac (by omega) fracRight
    have wholeRight : ¬ Misread (a ++ back) k := not_misread_of_isAt goesOn (by decide)
    have goesOn' : isAt (a ++ b :: more) k ".eEfFdD" = true := isAt_insert more before goesOn
    rw [digits_insert more isBase_isDecimal foreign whole (Nat.le_of_lt before) wholeRight]
    simp only [Except.bind, goesOn', if_true, frac', power', Except.map]
    rw [optional_insert more foreign (by decide) le]
  · rename_i ends
    cases read
    have ends' := not_isAt_insert more foreign (by decide) le ends
    rw [digits_insert more isBase_isDecimal foreign whole le right]
    simp [Except.bind, ends']

/-- A reading without remarks goes on with `p` behind the mantissa. -/
theorem hexExponent_plain (read : hexExponent text n = { outcome := .ok lexeme }) : isAt text n "pP" = true ∧
      ∃ m, exponentValue text (n + 1) = .ok m ∧ Lexeme.ofLength .hexFloatingPoint m = lexeme := by
  unfold hexExponent at read
  split at read
  · rename_i mark
    exact ⟨mark, map_eq_ok (congrArg Reading.outcome read)⟩
  · split at read
    · cases congrArg Reading.outcome read
    · cases congrArg Reading.remarks read

/-- A hexadecimal number is read as before where a blank is put behind it. -/
theorem hex_insert (foreign : b ∉ characters)
    (read : hex (a ++ back) = { outcome := .ok lexeme }) (le : lexeme.further + 1 ≤ a.length)
    (right : ¬ Misread (a ++ back) (lexeme.further + 1)) :
    hex (a ++ b :: more) = { outcome := .ok lexeme } ∧ 2 ≤ lexeme.further + 1 := by
  unfold hex at read ⊢
  cases whole : digitsAt isHex (a ++ back) 2 with
  | error f =>
    rw [whole] at read
    cases congrArg Reading.outcome read
  | ok k =>
    have long := le_of_digitsAt whole
    rw [whole] at read
    dsimp only at read
    cases goesOn : isAt (a ++ back) k ".pP" with
    | false =>
      rw [goesOn] at read
      obtain rfl := Except.ok.inj (congrArg Reading.outcome read)
      rw [further_ofLength (Nat.le_of_succ_le long)] at le right ⊢
      have ends' := not_isAt_insert more foreign (by decide) le (Bool.eq_false_iff.1 goesOn)
      rw [digitsAt_insert more isBase_isHex foreign whole le right]
      dsimp only
      rw [Bool.eq_false_iff.2 ends']
      exact ⟨rfl, long⟩
    | true =>
      rw [goesOn] at read
      cases frac : fraction isHex (a ++ back) k with
      | error f =>
        rw [frac] at read
        cases congrArg Reading.outcome read
      | ok m =>
        rw [frac] at read
        obtain ⟨mark, n, power, rfl⟩ := hexExponent_plain read
        have km := (le_of_fraction frac).1
        have mn := le_of_exponentValue power
        rw [further_ofLength (Nat.le_trans (Nat.le_add_left 1 m) mn)] at le right ⊢
        have goesOn' : isAt (a ++ b :: more) k ".pP" = true := isAt_insert more (by omega) goesOn
        have mark' : isAt (a ++ b :: more) m "pP" = true := isAt_insert more (by omega) mark
        have wholeRight : ¬ Misread (a ++ back) k := not_misread_of_isAt goesOn (by decide)
        have fracRight : ¬ Misread (a ++ back) m := not_misread_of_isAt mark (by decide)
        rw [digitsAt_insert more isBase_isHex foreign whole (by omega) wholeRight]
        dsimp only
        rw [goesOn', fraction_insert more isBase_isHex foreign frac (by omega) fracRight]
        simp only [hexExponent, mark', if_true, exponentValue_insert more foreign power le right]
        exact ⟨rfl, by omega⟩

theorem le_digitRun (isDigit : CodePoint → Bool) (taken underscores : Nat) (text : Text) :
    taken ≤ (digitRun isDigit taken underscores text).1 := by
  induction text generalizing taken underscores with
  | nil => exact Nat.le_refl taken
  | cons c text ih =>
    rw [digitRun]
    split
    · exact Nat.le_trans (by omega) (ih _ _)
    split
    · exact ih _ _
    · exact Nat.le_refl taken

/-- A digit in front of the reader is taken. -/
theorem lt_of_digitsAt {c : CodePoint} (digit : isDigit c = true) (starts : text.drop n = c :: rest)
    (read : digitsAt isDigit text n = .ok m) : n < m := by
  obtain ⟨k, taken, rfl⟩ := map_eq_ok read
  rw [starts, digits, if_neg (by simp), digitRun, if_pos digit] at taken
  have pos := le_digitRun isDigit (0 + 0 + 1) 0 rest
  have length := Except.ok.inj taken
  split at length <;> omega

theorem le_ofLength (cls : TokenClass) (n : Nat) : n ≤ (Lexeme.ofLength cls n).further + 1 := by
  unfold Lexeme.ofLength
  dsimp only
  omega

theorem not_misread_of_ofLength
    (right : ¬ Misread (a ++ back) ((Lexeme.ofLength cls n).further + 1)) : ¬ Misread (a ++ back) n := by
  cases n with
  | zero =>
    rintro ⟨last, -⟩
    cases last
  | succ n => exact right

theorem plain_decimal_insert (foreign : b ∉ characters)
    (read : Number.plain (decimal (a ++ back)) = { outcome := .ok lexeme }) (le : lexeme.further + 1 ≤ a.length)
    (right : ¬ Misread (a ++ back) (lexeme.further + 1)) :
    Number.plain (decimal (a ++ b :: more)) = { outcome := .ok lexeme } := by
  obtain ⟨cls, n, ok, rfl⟩ := plain_eq_ok (congrArg Reading.outcome read)
  rw [decimal_insert more foreign ok (Nat.le_trans (le_ofLength cls n) le) (not_misread_of_ofLength right)]
  rfl

theorem plain_radix_insert (base : IsBase isDigit) (foreign : b ∉ characters)
    (read : Number.plain ((digitsAt isDigit (a ++ back) n).map (cls, ·)) = { outcome := .ok lexeme })
    (le : lexeme.further + 1 ≤ a.length) (right : ¬ Misread (a ++ back) (lexeme.further + 1)) :
    Number.plain ((digitsAt isDigit (a ++ b :: more) n).map (cls, ·)) = { outcome := .ok lexeme } ∧
      ∃ m ≤ a.length, digitsAt isDigit (a ++ back) n = .ok m := by
  obtain ⟨_, _, ok, rfl⟩ := plain_eq_ok (congrArg Reading.outcome read)
  obtain ⟨m, taken, same⟩ := map_eq_ok ok
  obtain ⟨rfl, rfl⟩ := Prod.mk.inj same
  have inside := Nat.le_trans (le_ofLength cls m) le
  rw [digitsAt_insert more base foreign taken inside (not_misread_of_ofLength right)]
  exact ⟨rfl, m, inside, taken⟩

/-- A choice comes to the same where its test and its branches do. -/
theorem ite_eq_of {α : Type} {p p' : Prop} [Decidable p] [Decidable p'] {x x' y y' z : α}
    (came : (if p then x else y) = z) (pos : p → x = z → p' ∧ x' = z) (neg : ¬ p → y = z → ¬ p' ∧ y' = z) :
    (if p' then x' else y') = z := by
  split at came
  · obtain ⟨holds, same⟩ := pos ‹p› came
    rw [if_pos holds, same]
  · obtain ⟨fails, same⟩ := neg ‹¬ p› came
    rw [if_neg fails, same]

/-- A number is read as before where a blank is put behind it. -/
theorem read_insert (foreign : b ∉ characters) (nonempty : 1 ≤ a.length)
    (read : Number.read (a ++ back) = { outcome := .ok lexeme }) (le : lexeme.further + 1 ≤ a.length)
    (right : ¬ Misread (a ++ back) (lexeme.further + 1)) :
    Number.read (a ++ b :: more) = { outcome := .ok lexeme } := by
  have head : (a ++ b :: more).head? = (a ++ back).head? := by
    cases a with
    | nil => cases nonempty
    | cons c a => rfl
  have long : ¬ ((a ++ b :: more).length == 1) = true := by
    rw [beq_iff_eq, length_append, length_cons]
    omega
  have other {s : String} (sub : ∀ c ∈ ofString s, c ∈ characters) (elsewhere : ¬ isAt (a ++ back) 1 s = true) :
      ¬ isAt (a ++ b :: more) 1 s = true := not_isAt_insert more foreign sub nonempty elsewhere
  unfold Number.read at read ⊢
  rw [head]
  refine ite_eq_of read (fun zero read => ⟨zero, ?_⟩)
    fun noZero read => ⟨noZero, plain_decimal_insert more foreign read le right⟩
  refine ite_eq_of read (fun _ read => by cases congrArg Reading.outcome read) fun _ read => ⟨long, ?_⟩
  refine ite_eq_of read (fun mark read => ?_) fun noHex read => ⟨other (by decide) noHex, ?_⟩
  · obtain ⟨read', two⟩ := hex_insert more foreign read le right
    exact ⟨isAt_insert more (Nat.le_trans two le) mark, read'⟩
  refine ite_eq_of read (fun mark read => ?_) fun noBinary read => ⟨other (by decide) noBinary, ?_⟩
  · obtain ⟨read', m, inside, taken⟩ := plain_radix_insert more isBase_isBinary foreign read le right
    exact ⟨isAt_insert more (Nat.le_trans (le_of_digitsAt taken) inside) mark, read'⟩
  refine ite_eq_of read (fun octal read => ?_)
    fun noOctal read => ⟨other (by decide) noOctal, plain_decimal_insert more foreign read le right⟩
  obtain ⟨read', m, inside, taken⟩ := plain_radix_insert more isBase_isOctal foreign read le right
  have further : 1 < m := by
    obtain ⟨d, digit, starts⟩ := drop_of_isAt octal
    have digits : ∀ d ∈ ofString "01234567", isOctal d = true := by decide
    exact lt_of_digitsAt (digits d (contains_iff_mem.1 digit)) starts taken
  exact ⟨isAt_insert more (Nat.le_trans further inside) octal, read'⟩

/-- A point before a decimal digit starts a number of at least two characters. -/
theorem two_le_of_point {d : CodePoint} (digit : isDecimal d = true)
    (read : Number.plain (decimal ('.'.toNat :: d :: rest)) = { outcome := .ok lexeme }) : 1 ≤ lexeme.further := by
  obtain ⟨cls, n, ok, rfl⟩ := plain_eq_ok (congrArg Reading.outcome read)
  rw [decimal_eq] at ok
  obtain ⟨k, whole, ok⟩ := bind_eq_ok ok
  obtain rfl : 0 = k := Except.ok.inj whole
  have goesOn : isAt ('.'.toNat :: d :: rest) 0 ".eEfFdD" = true := rfl
  have point : isAt ('.'.toNat :: d :: rest) 0 "." = true := rfl
  rw [if_pos goesOn, fraction, if_pos point] at ok
  obtain ⟨m, frac, ok⟩ := bind_eq_ok ok
  obtain ⟨e, power, same⟩ := map_eq_ok ok
  obtain ⟨rfl, rfl⟩ := Prod.mk.inj same
  have two : 1 < m := lt_of_digitsAt digit rfl frac
  have longer := Nat.le_trans (le_of_exponentEnd power).1 (le_optional ('.'.toNat :: d :: rest) e "fFdD")
  exact Nat.le_sub_of_add_le (Nat.le_trans two longer)

end

end Number

end JavaSource.Lexer

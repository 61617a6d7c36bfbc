import JavaSource.Proofs.Lexer.Coverage
import JavaSource.Proofs.Lexer.Markers

/-!
# The translation of escapes

Where four hexadecimal digits follow every marker of a text, what the text stands for is given by a few rules,
`Translates`, and `unescape_translates` says that decoding follows them. In particular a text that is written with
escapes is read as it was.
-/

namespace JavaSource

open List Text

/-! ## Characters of hexadecimal numbers -/

namespace Text

/-- A character that is nowhere in a hexadecimal number. -/
structure NoHex (c : CodePoint) : Prop where
  blank : isNumberBlank c = false
  digit : hexDigitValue? c = none
  mark : c ∉ ofString "_xX+-"

variable {c : CodePoint} {text : Text}

theorem hexDigits?_of_mem (noHex : NoHex c) {value : Nat} (mem : c ∈ text) : hexDigits? value text = none := by
  fun_induction hexDigits? value text with
  | case1 => cases mem
  | case2 value d rest v isDigit ih =>
    rcases mem_cons.1 mem with rfl | mem
    · cases noHex.digit.symm.trans isDigit
    · exact ih mem
  | case3 value d _ underscore e rest ih =>
    rcases mem_cons.1 mem with rfl | mem
    · rw [eq_of_beq underscore] at noHex
      exact absurd noHex.mark (by decide)
    · rcases mem_cons.1 mem with rfl | mem
      · rw [noHex.digit]
        rfl
      · cases hexDigitValue? e with
        | none => rfl
        | some v => exact ih v mem
  | case4 => rfl
  | case5 => rfl

theorem hexMagnitude?_of_mem (noHex : NoHex c) (mem : c ∈ text) : hexMagnitude? text = none := by
  have ne {d : CodePoint} (among : d ∈ ofString "_xX+-") : c ≠ d := fun same => noHex.mark (same ▸ among)
  fun_cases hexMagnitude? text with
  | case1 => rfl
  | case2 digits d rest digits_eq =>
    have kept : c ∈ digits := by
      dsimp only [digits]
      split
      · rename_i z x rest
        split
        · rename_i base
          obtain ⟨zero, mark⟩ := Bool.and_eq_true_iff.1 base
          have notZero : c ≠ z := by
            rintro rfl
            rw [noHex.digit] at zero
            cases zero
          have notMark : c ≠ x := by
            rcases Bool.or_eq_true_iff.1 mark with mark | mark
            · exact eq_of_beq mark ▸ ne (by decide)
            · exact eq_of_beq mark ▸ ne (by decide)
          have later : c ∈ rest := by simpa [notZero, notMark] using mem
          split
          · rename_i u rest
            split
            · rename_i underscore
              have notUnderscore : c ≠ u := eq_of_beq underscore ▸ ne (by decide)
              simpa [notUnderscore] using later
            · exact later
          · exact later
        · exact mem
      · exact mem
    rw [digits_eq] at kept
    rcases mem_cons.1 kept with rfl | kept
    · rw [noHex.digit]
      rfl
    · cases hexDigitValue? d with
      | none => rfl
      | some v => exact hexDigits?_of_mem noHex kept

theorem mem_dropWhile {P : CodePoint → Bool} (fails : P c = false) (mem : c ∈ text) : c ∈ text.dropWhile P := by
  induction text with
  | nil => cases mem
  | cons d text ih =>
    rw [dropWhile_cons]
    split
    · rename_i holds
      rcases mem_cons.1 mem with rfl | mem
      · cases fails.symm.trans holds
      · exact ih mem
    · exact mem

theorem hexNumber?_of_mem (noHex : NoHex c) (mem : c ∈ text) : hexNumber? text = none := by
  have ne {d : CodePoint} (among : d ∈ ofString "_xX+-") : c ≠ d := fun same => noHex.mark (same ▸ among)
  unfold hexNumber?
  dsimp only
  have kept : c ∈ ((text.dropWhile isNumberBlank).reverse.dropWhile isNumberBlank).reverse :=
    mem_reverse.2 (mem_dropWhile noHex.blank (mem_reverse.2 (mem_dropWhile noHex.blank mem)))
  split
  · rename_i d rest body_eq
    rw [body_eq] at kept
    have behind {sign : CodePoint} (among : sign ∈ ofString "_xX+-") (same : (d == sign) = true) :
        hexMagnitude? rest = none := by
      have other : c ≠ d := eq_of_beq same ▸ ne among
      exact hexMagnitude?_of_mem noHex (by simpa [other] using kept)
    split
    · rename_i plus
      rw [behind (by decide) plus]
      rfl
    split
    · rename_i minus
      rw [behind (by decide) minus]
      rfl
    · rw [body_eq, hexMagnitude?_of_mem noHex kept]
      rfl
  · rfl

end Text

namespace Lexer

open Number

/-! ## Codes -/

def hexValue (d : CodePoint) : Nat := if d ≤ 57 then d - 48 else if d ≤ 70 then d - 55 else d - 87

/-- Four hexadecimal digits and the character with that code. -/
structure IsCode (digits : Text) (c : CodePoint) : Prop where
  length : digits.length = 4
  hex : ∀ d ∈ digits, Number.isHex d = true
  value : digits.foldl (fun n d => 16 * n + hexValue d) 0 = c

variable {d : CodePoint} {digits text : Text}

theorem lt_of_isHex (hex : isHex d = true) : d < 103 := by
  simp only [isHex, isDecimal, Bool.or_eq_true, Bool.and_eq_true, decide_eq_true_eq] at hex
  rcases hex with (⟨-, le⟩ | ⟨-, le⟩) | ⟨-, le⟩
  · exact Nat.lt_of_le_of_lt le (by decide)
  · exact Nat.lt_of_le_of_lt le (by decide)
  · exact Nat.lt_of_le_of_lt le (by decide)

/-- A hexadecimal digit is no blank, no sign and no mark of a base. -/
theorem digit_of_isHex (hex : isHex d = true) :
    isNumberBlank d = false ∧ hexDigitValue? d = some (hexValue d) ∧ d ∉ ofString "+-xX\\" := by
  have all : ∀ d < 103, isHex d = true →
      isNumberBlank d = false ∧ hexDigitValue? d = some (hexValue d) ∧ d ∉ ofString "+-xX\\" := by
    decide +kernel
  exact all d (lt_of_isHex hex) hex

theorem hexDigits?_of_isHex (hex : ∀ d ∈ digits, isHex d = true) (value : Nat) :
    hexDigits? value digits = some (digits.foldl (fun n d => 16 * n + hexValue d) value) := by
  induction digits generalizing value with
  | nil => rfl
  | cons d digits ih =>
    obtain ⟨isHex, hex⟩ := forall_mem_cons.1 hex
    rw [hexDigits?.eq_def]
    simp only [(digit_of_isHex isHex).2.1]
    exact ih hex _

/-- No mark of a base is read in front of hexadecimal digits. -/
theorem hexMagnitude?_of_isHex (hex : ∀ e ∈ d :: digits, isHex e = true) :
    hexMagnitude? (d :: digits) = some (digits.foldl (fun n e => 16 * n + hexValue e) (hexValue d)) := by
  have first := (digit_of_isHex (hex d mem_cons_self)).2.1
  have behind := hexDigits?_of_isHex (fun e mem => hex e (mem_cons_of_mem d mem)) (hexValue d)
  cases digits with
  | nil =>
    rw [hexMagnitude?.eq_def]
    simp only [first, Option.bind_some, behind]
  | cons e digits =>
    have noMark := (digit_of_isHex (hex e (by simp))).2.2
    have noBase : ¬ (some (hexValue d) == some 0 && (e == 'x'.toNat || e == 'X'.toNat)) = true := by
      rw [Bool.and_eq_true, Bool.or_eq_true, beq_iff_eq, beq_iff_eq, beq_iff_eq]
      rintro ⟨-, rfl | rfl⟩
      · exact noMark (by decide)
      · exact noMark (by decide)
    rw [hexMagnitude?.eq_def]
    simp only [first, if_neg noBase, Option.bind_some, behind]

theorem dropWhile_of_forall {P : CodePoint → Bool} (fails : ∀ c ∈ text, P c = false) : text.dropWhile P = text := by
  cases text with
  | nil => rfl
  | cons c rest => exact dropWhile_cons_of_neg (by simp [fails c])

/-- Four hexadecimal digits are read as their code. -/
theorem IsCode.hexNumber?_eq {n : CodePoint} (code : IsCode digits n) : hexNumber? digits = some (n : Int) := by
  obtain ⟨length, hex, value⟩ := code
  have noBlank : ∀ d ∈ digits, isNumberBlank d = false := fun d mem => (digit_of_isHex (hex d mem)).1
  have body : ((digits.dropWhile isNumberBlank).reverse.dropWhile isNumberBlank).reverse = digits := by
    rw [dropWhile_of_forall noBlank, dropWhile_of_forall fun d mem => noBlank d (mem_reverse.1 mem),
      reverse_reverse]
  rw [hexNumber?]
  cases digits with
  | nil => cases length
  | cons d digits =>
    have noSign := (digit_of_isHex (hex d mem_cons_self)).2.2
    have noPlus : ¬ (d == '+'.toNat) = true := by
      rw [beq_iff_eq]
      rintro rfl
      exact noSign (by decide)
    have noMinus : ¬ (d == '-'.toNat) = true := by
      rw [beq_iff_eq]
      rintro rfl
      exact noSign (by decide)
    rw [foldl_cons, Nat.mul_zero, Nat.zero_add] at value
    simp only [body, if_neg noPlus, if_neg noMinus, hexMagnitude?_of_isHex hex, value, Option.map_some]
    rfl

/-- Each character of the first plane has a code of four digits. -/
theorem exists_isCode {c : CodePoint} (lt : c < 65536) : ∃ digits, IsCode digits c := by
  have digit : ∀ v < 16, ∃ d, isHex d = true ∧ hexValue d = v := by
    intro v small
    have all : ∀ v < 16, isHex (if v < 10 then v + 48 else v + 87) = true ∧
        hexValue (if v < 10 then v + 48 else v + 87) = v := by
      decide
    exact ⟨_, all v small⟩
  obtain ⟨d₃, hex₃, value₃⟩ := digit (c / 4096) (Nat.div_lt_of_lt_mul lt)
  obtain ⟨d₂, hex₂, value₂⟩ := digit (c / 256 % 16) (Nat.mod_lt _ (by decide))
  obtain ⟨d₁, hex₁, value₁⟩ := digit (c / 16 % 16) (Nat.mod_lt _ (by decide))
  obtain ⟨d₀, hex₀, value₀⟩ := digit (c % 16) (Nat.mod_lt _ (by decide))
  refine ⟨[d₃, d₂, d₁, d₀], rfl, ?_, ?_⟩
  · simp [hex₃, hex₂, hex₁, hex₀]
  · simp only [foldl_cons, foldl_nil, value₃, value₂, value₁, value₀]
    omega

/-! ## The translation -/

theorem noHex_backslash : Text.NoHex '\\'.toNat := ⟨by decide, by decide, by decide⟩

theorem noHex_u : Text.NoHex 'u'.toNat := ⟨by decide, by decide, by decide⟩

/-- Digits that are a number are neither the end of the marker nor empty. -/
theorem exists_cons_of_hexNumber? {n : Int} (number : hexNumber? digits = some n) :
    ∃ c rest, digits = c :: rest ∧ c ≠ 'u'.toNat := by
  cases digits with
  | nil => cases number
  | cons c rest =>
    refine ⟨c, rest, rfl, ?_⟩
    rintro rfl
    rw [hexNumber?_of_mem noHex_u mem_cons_self] at number
    cases number

/-- An escape whose code is a number that is not negative is one character, and decoding goes on behind it. -/
theorem unescapeFrom_escape {us : Nat} (pos : 0 < us) {rest : Text} {n : Nat}
    (number : hexNumber? digits = some (n : Int)) (whole : (digits ++ rest).take 4 = digits) (copied : Text)
    (earlier : Option Int) :
    unescapeFrom copied earlier .plain ('\\'.toNat :: (copies us 'u' ++ (digits ++ rest))) =
      (unescapeFrom [] (some (n : Int)) .plain rest).after (copied.reverse ++ [n]) [] := by
  obtain ⟨c, more, rfl, ne⟩ := exists_cons_of_hexNumber? number
  rw [unescapeFrom_escaped pos (cons_ne_nil c more) (by simpa using ne) whole _ _ rfl]
  simp only [number, Option.some_or, Option.elim_some, Option.isSome_some, if_true, Int.toNat_natCast]
  rw [if_neg (by omega)]

/-- Four hexadecimal digits stand behind each marker of a text. -/
def WellFormed (text : Text) : Prop :=
  ∀ before us after, IsMarker text before us after → ∃ digits rest c, after = digits ++ rest ∧ IsCode digits c

/-- What a text stands for: an escape is the character with its code, a backslash and the character behind it stay as
they are if no escape starts there, and so do all other characters. What an escape stands for is not looked at again. -/
inductive Translates : Text → Text → Prop where
  | nil : Translates [] []
  | char {c : CodePoint} {rest decoded : Text} : c ≠ '\\'.toNat → Translates rest decoded →
    Translates (c :: rest) (c :: decoded)
  | lone : Translates ['\\'.toNat] ['\\'.toNat]
  | pair {c : CodePoint} {rest decoded : Text} : c ≠ 'u'.toNat → Translates rest decoded →
    Translates ('\\'.toNat :: c :: rest) ('\\'.toNat :: c :: decoded)
  | escape {us : Nat} {digits : Text} {c : CodePoint} {rest decoded : Text} : 0 < us → IsCode digits c →
    Translates rest decoded → Translates ('\\'.toNat :: (Text.copies us 'u' ++ (digits ++ rest))) (c :: decoded)

theorem Copied.translates {since rest decoded : Text} (copied : Copied since) (behind : Translates rest decoded) :
    Translates (since ++ rest) (since ++ decoded) := by
  induction copied with
  | nil => exact behind
  | char ne _ ih => exact .char ne ih
  | pair ne _ ih => exact .pair ne ih

theorem WellFormed.behind {front : Text} (unmarked : Unmarked front) (wellFormed : WellFormed (front ++ text)) :
    WellFormed text :=
  fun before us after marker => wellFormed (front ++ before) us after ((unmarked _ _ _ _).2 ⟨before, rfl, marker⟩)

theorem IsCode.clean {c : CodePoint} (code : IsCode digits c) : '\\'.toNat ∉ digits :=
  fun mem => (digit_of_isHex (code.hex _ mem)).2.2 (by decide)

/-- A text with four digits behind each marker can be translated, by induction from escape to escape. -/
theorem WellFormed.exists_translates (wellFormed : WellFormed text) : ∃ decoded, Translates text decoded := by
  induction text using segments with
  | last since copied =>
    have whole := copied.translates .nil
    rw [append_nil] at whole
    exact ⟨_, whole⟩
  | lone since copied => exact ⟨_, copied.translates .lone⟩
  | cut since us copied pos =>
    rw [← append_nil (copies us 'u')] at wellFormed
    obtain ⟨digits, rest, c, empty, code⟩ := wellFormed since us [] (copied.isMarker pos (by simp))
    have none_left : digits = [] := (append_eq_nil_iff.1 empty.symm).1
    have length := code.length
    rw [none_left] at length
    cases length
  | escape since us digits rest copied pos nonempty whole head ih =>
    have starts : (digits ++ rest).head? ≠ some 'u'.toNat := by
      rwa [head?_append, Option.or_of_isSome (isSome_head?.2 nonempty)]
    obtain ⟨code, later, c, split, isCode⟩ := wellFormed since us (digits ++ rest) (copied.isMarker pos starts)
    -- the four digits are the four characters that the escape takes
    have taken : code = digits := by
      have first := congrArg (List.take 4) split
      rwa [whole, take_append_of_le_length (Nat.le_of_eq isCode.length.symm),
        take_of_length_le (Nat.le_of_eq isCode.length), eq_comm] at first
    subst taken
    have later : WellFormed rest := fun before us' after marker =>
      wellFormed.behind copied.unmarked _ us' after
        ((isMarker_escape pos isCode.clean starts).2 (.inr ⟨before, rfl, marker⟩))
    obtain ⟨decoded, behind⟩ := ih later
    exact ⟨_, copied.translates (.escape pos isCode behind)⟩

/-- The translation of a text is what decoding makes of it, behind any characters that were copied before. -/
theorem Translates.unescapeFrom_eq {decoded : Text} (translates : Translates text decoded) (copied : Text)
    (earlier : Option Int) :
    unescapeFrom copied earlier .plain text = { outcome := .ok (copied.reverse ++ decoded) } := by
  induction translates generalizing copied earlier with
  | nil => rw [unescapeFrom, append_nil]
  | @char c rest decoded ne _ ih =>
    rw [unescapeFrom, if_neg fun same => ne (eq_of_beq same), ih, reverse_cons, append_assoc,
      singleton_append]
  | lone =>
    rw [unescapeFrom, if_pos (beq_self_eq_true _), unescapeFrom]
  | @pair c rest decoded ne _ ih =>
    rw [unescapeFrom, if_pos (beq_self_eq_true _), unescapeFrom, if_neg fun same => ne (eq_of_beq same), ih,
      reverse_cons, reverse_cons, append_assoc, append_assoc]
    rfl
  | @escape us digits c rest decoded pos code _ ih =>
    have whole : (digits ++ rest).take 4 = digits := by
      rw [take_append_of_le_length (Nat.le_of_eq code.length.symm),
        take_of_length_le (Nat.le_of_eq code.length)]
    rw [unescapeFrom_escape pos code.hexNumber?_eq whole, ih, Unescaped.after]
    simp [Except.map]

/-- A text and a way to write it: some of its characters, and all backslashes, as escapes. -/
inductive Spells : Text → Text → Prop where
  | nil : Spells [] []
  | char {c : CodePoint} {rest spelled : Text} : c ≠ '\\'.toNat → Spells rest spelled →
    Spells (c :: rest) (c :: spelled)
  | escape {us : Nat} {digits : Text} {c : CodePoint} {rest spelled : Text} : 0 < us → IsCode digits c →
    Spells rest spelled → Spells (c :: rest) ('\\'.toNat :: (Text.copies us 'u' ++ (digits ++ spelled)))

theorem Spells.translates {spelled : Text} (spells : Spells text spelled) : Translates spelled text := by
  induction spells with
  | nil => exact .nil
  | char ne _ ih => exact .char ne ih
  | escape pos code _ ih => exact .escape pos code ih

/-- **Escapes are translated.** A text with four hexadecimal digits behind each marker has a translation, and that is
what decoding gives, without a complaint; a text has at most one. So the tokens of any source that holds the text are
those of the translation. A text that is written with escapes is read as it was, however many `u` they have; each
character of the first plane can be written so. -/
theorem unescape_translates (text : Text) : (WellFormed text → ∃ decoded, Translates text decoded) ∧
    (∀ decoded, Translates text decoded → unescape text = { outcome := .ok decoded } ∧
      ∀ mode source, source.decoded = text →
        tokenize mode source = tokensFrom mode decoded (Place.start decoded)) ∧
    (∀ spelled, Spells text spelled → unescape spelled = { outcome := .ok text }) ∧
    ∀ c < 65536, ∃ digits, IsCode digits c := by
  have decodes {raw decoded : Text} (translates : Translates raw decoded) :
      unescape raw = { outcome := .ok decoded } := translates.unescapeFrom_eq [] none
  refine ⟨WellFormed.exists_translates, ?_, fun spelled spells => decodes spells.translates, fun c => exists_isCode⟩
  intro decoded translates
  refine ⟨decodes translates, ?_⟩
  rintro mode source rfl
  cases source with
  | text raw =>
    have decoded_eq : unescape raw = { outcome := .ok decoded } := decodes translates
    rw [tokenize, tokenizeText, decoded_eq]
    cases mode with
    | strict => rfl
    | lenient => rfl
  | bytes bytes =>
    have decoded_eq : unescape (ofBytes bytes) = { outcome := .ok decoded } := decodes translates
    rw [tokenize, tokenizeBytes, decoded_eq]
    rfl

end Lexer

end JavaSource

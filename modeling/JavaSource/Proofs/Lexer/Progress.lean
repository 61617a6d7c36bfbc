import JavaSource.Proofs.Lexer.NumberSpacing
import JavaSource.Proofs.Lexer.Scan

/-!
# Every turn gets on

Decoding the escapes of a text and reading its tokens are loops. `Escaping.turn` and `Place.turn` are their bodies, and
`Turn.run` lets a loop make so many turns and no more. A turn that does not leave its loop leaves less of the text, for
the readers of lexemes count at least one character each, `Measured.pos`. So both loops are left at the end of the
text at the latest, `Turn.run_eq`, and `tokenize_progress` says it of every text and both modes.
-/

namespace JavaSource

namespace Lexer

open List Text

/-! ## Loops -/

/-- What comes of the head of a loop and of one turn of it. -/
inductive Turn (σ ω : Type) where
  /-- The condition of the loop does not hold, and no turn is made. -/
  | finished (result : ω)
  /-- The turn leaves the loop. -/
  | leaves (result : ω)
  /-- The turn ends in another state, and the result is made from that of the turns to come. -/
  | goesOn (next : σ) (finish : ω → ω)

namespace Turn

variable {σ ω : Type}

/-- The result of a loop, if that many turns are enough for it. -/
def run (turn : σ → Turn σ ω) (n : Nat) (s : σ) : Option ω :=
  match turn s, n with
  | .finished result, _ => some result
  | .leaves result, _ + 1 => some result
  | .goesOn next finish, n + 1 => (run turn n next).map finish
  | _, 0 => none

/-- The turn gives what is to come out, where `value` comes out of the turns after it. There is text in front of it,
and if it goes on, then by at least one character. -/
def Sound (rest : σ → Text) (offset : σ → Nat) (value : σ → ω) (s : σ) (result : ω) : Turn σ ω → Prop
  | .finished result' => result = result'
  | .leaves result' => result = result' ∧ rest s ≠ []
  | .goesOn next finish => result = finish (value next) ∧ rest s ≠ [] ∧
    ∃ n, rest next = (rest s).drop (n + 1) ∧ offset next = offset s + (n + 1)

variable {rest : σ → Text} {offset : σ → Nat} {value : σ → ω} {s : σ}

theorem Sound.offset_lt {result : ω} {next : σ} {finish : ω → ω}
    (sound : Sound rest offset value s result (.goesOn next finish)) : offset s < offset next := by
  obtain ⟨-, -, n, -, later⟩ := sound
  exact later ▸ Nat.lt_add_of_pos_right (Nat.zero_lt_succ n)

/-- A loop needs no more turns than there are characters in front of it. -/
theorem run_eq {turn : σ → Turn σ ω} (sound : ∀ s, Sound rest offset value s (value s) (turn s)) {n : Nat}
    (enough : (rest s).length ≤ n) : run turn n s = some (value s) := by
  induction n using Nat.strongRecOn generalizing s with
  | ind n ih =>
    have made := sound s
    have another (more : rest s ≠ []) : ∃ m, n = m + 1 :=
      Nat.exists_eq_succ_of_ne_zero (Nat.ne_of_gt (Nat.lt_of_lt_of_le (length_pos_iff.2 more) enough))
    unfold run
    cases does : turn s with
    | finished result =>
      rw [does] at made
      exact congrArg some made.symm
    | leaves result =>
      rw [does] at made
      obtain ⟨m, rfl⟩ := another made.2
      exact congrArg some made.1.symm
    | goesOn next finish =>
      rw [does] at made
      obtain ⟨same, more, k, further, -⟩ := made
      obtain ⟨m, rfl⟩ := another more
      have less : (rest next).length ≤ m := by
        rw [further, length_drop]
        omega
      dsimp only
      rw [ih m (Nat.lt_succ_self m) less, same]
      rfl

/-- A turn with complaints. In strict mode it leaves the loop with the first of them. -/
def complaining (mode : Mode) (complaints : List Complaint) (turn : Turn σ Lexed) : Turn σ Lexed :=
  match mode, complaints, turn with
  | .strict, _ :: _, _ => .leaves (.afterComplaints mode complaints {})
  | _, _, .finished result => .finished (.afterComplaints mode complaints result)
  | _, _, .leaves result => .leaves (.afterComplaints mode complaints result)
  | _, _, .goesOn next finish => .goesOn next fun later => .afterComplaints mode complaints (finish later)

theorem Sound.complaining {value : σ → Lexed} {result : Lexed} {turn : Turn σ Lexed}
    (sound : Sound rest offset value s result turn) (nonempty : rest s ≠ []) (mode : Mode) (complaints : List Complaint) :
    Sound rest offset value s (.afterComplaints mode complaints result) (turn.complaining mode complaints) := by
  unfold Turn.complaining
  split
  · exact ⟨rfl, nonempty⟩
  · exact congrArg _ sound
  · exact ⟨congrArg _ sound.1, sound.2⟩
  · exact ⟨congrArg _ sound.1, sound.2⟩

end Turn

/-! ## The length of a lexeme -/

/-- The class of a lexeme and its length, as its reader counts it. -/
inductive Measured (c : CodePoint) (rest : Text) : TokenClass → Nat → Prop where
  | operator {op : Text} : Vocabulary.leadingOperator? (c :: rest) = some op → Measured c rest .operator op.length
  | sign {cls : TokenClass} : cls = .atSign ∨ cls = .separator → Measured c rest cls 1
  | number {cls : TokenClass} {n : Nat} : c = '.'.toNat ∨ Number.isDecimal c = true →
    Number.Counted (c :: rest) cls n → Measured c rest cls n
  | closed {remarks : List Remark} {n : Nat} : Quotation.scan c 0 .plain rest = (remarks, some n) →
    Measured c rest .string (n + 1)
  | unclosed {remarks : List Remark} : Quotation.scan c 0 .plain rest = (remarks, none) →
    Measured c rest .string (rest.length + 1)
  | word {word : Text} : isIdentifierStart c = true → (c :: rest).takeWhile isIdentifierPart = word →
    Measured c rest (Vocabulary.classOfWord word) word.length

variable {c : CodePoint} {rest : Text} {cls : TokenClass} {n : Nat}

/-- A number has a digit or a point at its start, and its reader counts it. -/
theorem Number.decimal_pos (starts : c = '.'.toNat ∨ isDecimal c = true) (read : decimal (c :: rest) = .ok (cls, n)) :
    0 < n := by
  rw [decimal_eq] at read
  obtain ⟨k, whole, read⟩ := bind_eq_ok read
  have digit (isDigit : isDecimal c = true) : 0 < k := by
    have taken : digitsAt isDecimal (c :: rest) 0 = .ok (0 + k) := congrArg (Except.map (0 + ·)) whole
    exact Nat.zero_add k ▸ lt_of_digitsAt isDigit rfl taken
  split at read
  · obtain ⟨m, frac, read⟩ := bind_eq_ok read
    obtain ⟨e, power, same⟩ := map_eq_ok read
    obtain ⟨-, rfl⟩ := Prod.mk.inj same
    have pos : 0 < m := by
      rcases starts with rfl | isDigit
      · obtain rfl : 0 = k := Except.ok.inj whole
        exact (le_of_fraction frac).2 rfl
      · exact Nat.lt_of_lt_of_le (digit isDigit) (le_of_fraction frac).1
    exact Nat.lt_of_lt_of_le pos (Nat.le_trans (le_of_exponentEnd power).1 (le_optional _ e "fFdD"))
  · rename_i ends
    obtain ⟨-, rfl⟩ := Prod.mk.inj (Except.ok.inj read)
    rcases starts with rfl | isDigit
    · obtain rfl : 0 = k := Except.ok.inj whole
      exact absurd rfl ends
    · exact digit isDigit

theorem Number.Counted.pos (starts : c = '.'.toNat ∨ isDecimal c = true) (counted : Counted (c :: rest) cls n) :
    0 < n := by
  have behind {isDigit : CodePoint → Bool} {k m : Nat} (taken : digitsAt isDigit (c :: rest) (k + 1) = .ok m) :
      0 < m := Nat.lt_of_lt_of_le (Nat.zero_lt_succ k) (le_of_digitsAt taken)
  cases counted with
  | decimal read => exact decimal_pos starts read
  | octal taken => exact behind taken
  | binary _ taken => exact behind taken
  | hex _ taken => exact behind taken
  | hexFloat _ whole frac power =>
    have mantissa := Nat.lt_of_lt_of_le (behind whole) (le_of_fraction frac).1
    exact Nat.lt_of_lt_of_le mantissa (Nat.le_trans (le_optional _ _ "pP") (le_of_exponentValue power))

theorem Measured.pos (measured : Measured c rest cls n) : 0 < n := by
  cases measured with
  | operator leading =>
    rw [Vocabulary.leadingOperator?] at leading
    exact (by decide : ∀ op ∈ Vocabulary.operators, 0 < op.length) _ (mem_of_find?_eq_some leading)
  | sign _ => exact Nat.one_pos
  | number starts counted => exact counted.pos starts
  | closed _ => exact Nat.zero_lt_succ _
  | unclosed _ => exact Nat.zero_lt_succ _
  | word start same =>
    rw [takeWhile_cons, isIdentifierPart, start, Bool.true_or, if_pos rfl] at same
    rw [← same]
    exact Nat.zero_lt_succ _

/-- Every lexeme is as long as its reader has counted. -/
theorem measured_of_lexeme? {reading : Reading} {lexeme : Lexeme} (read : lexeme? c rest = some reading)
    (ok : reading.outcome = .ok lexeme) : Measured c rest lexeme.cls (lexeme.further + 1) := by
  have counted {n : Nat} (measured : Measured c rest lexeme.cls n) (same : .ofLength lexeme.cls n = lexeme) :
      Measured c rest lexeme.cls (lexeme.further + 1) := by
    rw [← same, Number.further_ofLength measured.pos]
    exact measured
  cases lexeme?_readBy read with
  | operator operator =>
    obtain ⟨op, leading, rfl⟩ := Option.map_eq_some_iff.1 operator
    cases ok
    exact counted (.operator leading) rfl
  | atSign _ =>
    cases ok
    exact .sign (.inl rfl)
  | separator _ =>
    cases ok
    exact .sign (.inr rfl)
  | point isPoint _ =>
    obtain ⟨n, number, same⟩ := Number.counted_plain ok .decimal
    exact counted (.number (.inl isPoint) number) same
  | digit isDigit =>
    obtain ⟨n, number, same⟩ := Number.counted_of_read ok
    exact counted (.number (.inr isDigit) number) same
  | quotation _ =>
    unfold Quotation.read at ok
    split at ok
    · rename_i closed
      cases ok
      exact .closed closed
    · rename_i unclosed
      cases ok
      exact .unclosed unclosed
  | word start =>
    cases ok
    exact counted (.word start rfl) rfl

/-! ## Decoding escapes -/

/-- Where the decoding of escapes stands. -/
structure Escaping where
  copied : Text := []
  earlier : Option Int := none
  state : EscapeState := .plain
  rest : Text
  /-- The number of characters decoded. -/
  offset : Nat := 0

namespace Escaping

def value (s : Escaping) : Unescaped := unescapeFrom s.copied s.earlier s.state s.rest

/-- The place `n` characters later, with other text copied. -/
def move (s : Escaping) (n : Nat) (copied : Text) (state : EscapeState) : Escaping :=
  { s with copied, state, rest := s.rest.drop n, offset := s.offset + n }

/-- One turn of decoding. In plain text it goes to the next backslash, and from there on by single characters, except
for the four of a code. -/
def turn (s : Escaping) : Turn Escaping Unescaped :=
  match s.state, s.rest with
  | _, [] => .finished s.value
  | .plain, c :: rest =>
    let plain := (c :: rest).takeWhile (· != '\\'.toNat)
    if plain = c :: rest then .leaves { outcome := .ok (s.copied.reverse ++ plain) }
    else .goesOn (s.move (plain.length + 1) (plain.reverse ++ s.copied) .backslash) id
  | .backslash, c :: _ =>
    if c == 'u'.toNat then .goesOn (s.move 1 s.copied (.marker 1)) id
    else .goesOn (s.move 1 (c :: '\\'.toNat :: s.copied) .plain) id
  | .marker us, c :: rest =>
    if c == 'u'.toNat then .goesOn (s.move 1 s.copied (.marker (us + 1))) id
    else
      let digits := (c :: rest).take 4
      let code := hexNumber? digits
      let invalid := if code.isSome then [] else [digits]
      match code.or s.earlier with
      | none => .leaves { outcome := .error .noEarlierCode, invalid }
      | some code =>
        if code < 0 then .leaves { outcome := .error .negativeCode, invalid }
        else
          .goesOn { s.move 4 [] .plain with earlier := some code }
            (·.after (s.copied.reverse ++ [code.toNat]) invalid)

/-- A turn decodes what it goes over. -/
theorem turn_sound (s : Escaping) : Turn.Sound Escaping.rest offset value s s.value s.turn := by
  obtain ⟨copied, earlier, state, text, offset⟩ := s
  cases text with
  | nil => cases state <;> rfl
  | cons c text =>
    have nonempty : c :: text ≠ [] := cons_ne_nil c text
    cases state with
    | plain =>
      have split := takeWhile_append_dropWhile (p := (· != '\\'.toNat)) (l := c :: text)
      have stop := head?_dropWhile_not (· != '\\'.toNat) (c :: text)
      have further := drop_takeWhile (· != '\\'.toNat) (c :: text)
      have plain : ∀ d ∈ (c :: text).takeWhile (· != '\\'.toNat), d ≠ '\\'.toNat :=
        fun d mem => bne_iff_ne.1 (all_eq_true.1 all_takeWhile d mem)
      have copies := unescapeFrom_append plain copied earlier ((c :: text).dropWhile (· != '\\'.toNat))
      rw [split] at copies
      rw [value, copies, turn]
      dsimp only
      cases found : (c :: text).dropWhile (· != '\\'.toNat) with
      | nil =>
        rw [found, append_nil] at split
        rw [if_pos split, unescapeFrom, reverse_append, reverse_reverse]
        exact ⟨rfl, nonempty⟩
      | cons d behind =>
        rw [found] at split stop further
        have backslash : (d == '\\'.toNat) = true := by simpa using stop
        have some_left : (c :: text).takeWhile (· != '\\'.toNat) ≠ c :: text := by
          intro whole
          rw [whole] at split
          simp at split
        rw [if_neg some_left, unescapeFrom, if_pos backslash]
        refine ⟨?_, nonempty, _, rfl, rfl⟩
        rw [id, value, move, ← drop_drop, further]
        rfl
    | backslash =>
      rw [value, unescapeFrom, turn]
      dsimp only
      split
      · exact ⟨rfl, nonempty, 0, rfl, rfl⟩
      · exact ⟨rfl, nonempty, 0, rfl, rfl⟩
    | marker us =>
      rw [value, unescapeFrom, turn]
      dsimp only
      split
      · exact ⟨rfl, nonempty, 0, rfl, rfl⟩
      cases (hexNumber? ((c :: text).take 4)).or earlier with
      | none => exact ⟨rfl, nonempty⟩
      | some code =>
        dsimp only
        split
        · exact ⟨rfl, nonempty⟩
        · exact ⟨rfl, nonempty, 3, rfl, rfl⟩

end Escaping

/-! ## Reading tokens -/

namespace Place

/-- One turn of reading: over blanks, a comment, a lexeme or an unknown character. A comment without an end takes all
the rest. -/
def turn (mode : Mode) (text : Text) (p : Place) : Turn Place Lexed :=
  match p.rest with
  | [] => .finished {}
  | c :: rest =>
    if isBlank c then .goesOn (p.skip ((rest.takeWhile isBlank).length + 1)) id
    else
      match comment? (c :: rest) with
      | some (.closed n) => .goesOn (p.skipComment (n + 1)) id
      | some .unterminated =>
        .complaining mode [p.complaint text ⟨.unterminatedComment, none⟩] (.goesOn (p.advance (rest.length + 1)) id)
      | none =>
        match lexeme? c rest with
        | none => .complaining mode [p.complaint text ⟨.unknownCharacter, some c⟩] (.goesOn (p.advance 1) id)
        | some reading =>
          .complaining mode (reading.remarks.map (p.complaint text)) (match reading.outcome with
            | .error f => .leaves (.faulty f)
            | .ok lexeme => .goesOn (p.afterToken lexeme) (·.addToken (p.token lexeme)))

/-- A turn reads what it goes over. -/
theorem turn_sound (mode : Mode) (text : Text) (p : Place) :
    Turn.Sound Place.rest Place.offset (tokensFrom mode text) p (tokensFrom mode text p) (p.turn mode text) := by
  unfold turn
  split
  · rename_i ended
    exact tokensFrom_nil ended
  rename_i c rest starts
  have nonempty : p.rest ≠ [] := by simp [starts]
  rw [tokensFrom_cons starts]
  split
  · exact ⟨rfl, nonempty, _, rfl, rfl⟩
  cases comment? (c :: rest) with
  | some comment =>
    cases comment with
    | closed n => exact ⟨rfl, nonempty, n, rfl, rfl⟩
    | unterminated =>
      refine .complaining ?_ nonempty _ _
      have ended : (p.advance (rest.length + 1)).rest = [] := by simp [starts]
      exact ⟨(tokensFrom_nil ended).symm, nonempty, _, rfl, rfl⟩
  | none =>
    cases lexeme? c rest with
    | none =>
      refine .complaining ?_ nonempty _ _
      exact ⟨rfl, nonempty, 0, rfl, rfl⟩
    | some reading =>
      refine .complaining ?_ nonempty _ _
      cases reading.outcome with
      | error f => exact ⟨rfl, nonempty⟩
      | ok lexeme => exact ⟨rfl, nonempty, _, rfl, rfl⟩

end Place

end Lexer

/-- **Progress.** Reading a text, in both modes, never stands still. A turn of decoding its escapes that does not leave
the loop goes on to a later character, and so does a turn of reading the decoded text, for every lexeme is as long as
its reader counts, and no reader counts nothing. So at most as many turns as the text has characters decode it, and at
most as many as the decoded text has characters read its tokens, come to its end or to a failure. -/
theorem tokenize_progress (mode : Mode) (text : Text) :
    (∀ (s next : Lexer.Escaping) finish, s.turn = .goesOn next finish → s.offset < next.offset) ∧
    (∀ (p next : Lexer.Place) finish, p.turn mode text = .goesOn next finish → p.offset < next.offset) ∧
    (∀ c rest reading lexeme, Lexer.lexeme? c rest = some reading → reading.outcome = .ok lexeme →
      Lexer.Measured c rest lexeme.cls (lexeme.further + 1)) ∧
    (∀ c rest cls n, Lexer.Measured c rest cls n → 0 < n) ∧
    Lexer.Turn.run Lexer.Escaping.turn text.length { rest := text } = some (Lexer.unescape text) ∧
    ∀ decoded, (Lexer.unescape text).outcome = .ok decoded →
      Lexer.Turn.run (Lexer.Place.turn mode decoded) decoded.length (.start decoded) =
        some (Lexer.tokenizeUnescaped mode (Lexer.unescape text)) := by
  refine ⟨?_, ?_, fun _ _ _ _ => Lexer.measured_of_lexeme?, fun _ _ _ _ => Lexer.Measured.pos, ?_, ?_⟩
  · intro s next finish goesOn
    have sound := s.turn_sound
    rw [goesOn] at sound
    exact sound.offset_lt
  · intro p next finish goesOn
    have sound := p.turn_sound mode text
    rw [goesOn] at sound
    exact sound.offset_lt
  · exact Lexer.Turn.run_eq Lexer.Escaping.turn_sound (Nat.le_refl _)
  · intro decoded ok
    rw [Lexer.tokenizeUnescaped, ok]
    exact Lexer.Turn.run_eq (Lexer.Place.turn_sound mode decoded) (Nat.le_refl _)

end JavaSource

import Mathlib
import JavaSource.Proofs.Lexer.LexemeSpacing

/-!
# Where literals end

The reader of character and string literals tells four states apart, two of them for the digits of octal escapes. A
literal can be told without them: it is made of plain characters and of escapes, each a backslash and the character
behind it, and it ends at its quote. `Quotation.Ends` says so, and `tokenize_quotation` says that a strict reading
does the same wherever it comes to a quote: the states of the reader differ only behind a backslash.
-/

namespace JavaSource

open List Text

def Lexed.addTokens (tokens : List Token) (later : Lexed) : Lexed := { later with tokens := tokens ++ later.tokens }

/-- A reading that a complaint ends, after some tokens. -/
def Lexed.endedBy (tokens : List Token) (complaint : Lexer.Complaint) : Lexed :=
  { tokens, complaints := [complaint], failure := some (.complaint complaint) }

namespace Lexer

variable {text : Text}

namespace Quotation

/-! ## Literals in pieces -/

def quotes : Text := Text.ofString "'\""

/-- The characters that make an escape with a backslash before them. -/
def escapable : Text := Text.ofString "btnfru\"'\\01234567"

/-- Plain characters and escapes, one after the other. None of them is the quote by itself. -/
inductive Pieces (quote : CodePoint) : Text → Prop where
  | nil : Pieces quote []
  | plain {c : CodePoint} {body : Text} (noBackslash : c ≠ '\\'.toNat) (noQuote : c ≠ quote)
    (later : Pieces quote body) : Pieces quote (c :: body)
  | escape {c : CodePoint} {body : Text} (legal : c ∈ escapable) (later : Pieces quote body) :
    Pieces quote ('\\'.toNat :: c :: body)

/-- How a literal ends. -/
inductive Ending where
  /-- With the quote between what it holds and the text behind it. -/
  | closed (body tail : Text)
  /-- Before that, with a backslash in front of a character that makes no escape. -/
  | illegalEscape (c : CodePoint)
  /-- With the text. -/
  | unterminated

/-- **How a literal ends** whose opening quote is followed by some text. -/
inductive Ends (quote : CodePoint) : Text → Ending → Prop where
  | closed {body : Text} (pieces : Pieces quote body) (tail : Text) :
    Ends quote (body ++ quote :: tail) (.closed body tail)
  | illegalEscape {body : Text} {c : CodePoint} (pieces : Pieces quote body) (illegal : c ∉ escapable)
    (tail : Text) : Ends quote (body ++ '\\'.toNat :: c :: tail) (.illegalEscape c)
  | unterminated {body : Text} (pieces : Pieces quote body) : Ends quote body .unterminated
  | backslash {body : Text} (pieces : Pieces quote body) : Ends quote (body ++ ['\\'.toNat]) .unterminated

theorem Ends.plain {quote c : CodePoint} (noBackslash : c ≠ '\\'.toNat) (noQuote : c ≠ quote) {text : Text}
    (ends : ∃ ending, Ends quote text ending) : ∃ ending, Ends quote (c :: text) ending := by
  obtain ⟨ending, ends⟩ := ends
  cases ends with
  | closed pieces tail => exact ⟨_, .closed (.plain noBackslash noQuote pieces) tail⟩
  | illegalEscape pieces illegal tail => exact ⟨_, .illegalEscape (.plain noBackslash noQuote pieces) illegal tail⟩
  | unterminated pieces => exact ⟨_, .unterminated (.plain noBackslash noQuote pieces)⟩
  | backslash pieces => exact ⟨_, .backslash (.plain noBackslash noQuote pieces)⟩

theorem Ends.escape {quote c : CodePoint} (legal : c ∈ escapable) {text : Text}
    (ends : ∃ ending, Ends quote text ending) : ∃ ending, Ends quote ('\\'.toNat :: c :: text) ending := by
  obtain ⟨ending, ends⟩ := ends
  cases ends with
  | closed pieces tail => exact ⟨_, .closed (.escape legal pieces) tail⟩
  | illegalEscape pieces illegal tail => exact ⟨_, .illegalEscape (.escape legal pieces) illegal tail⟩
  | unterminated pieces => exact ⟨_, .unterminated (.escape legal pieces)⟩
  | backslash pieces => exact ⟨_, .backslash (.escape legal pieces)⟩

/-- Every text behind a quote ends the literal in some way. The induction goes from piece to piece. -/
theorem exists_ends (quote : CodePoint) (text : Text) : ∃ ending, Ends quote text ending := by
  generalize size_eq : text.length = size
  induction size using Nat.strongRecOn generalizing text with
  | ind size ih =>
    cases text with
    | nil => exact ⟨_, .unterminated .nil⟩
    | cons c rest =>
      rw [length_cons] at size_eq
      by_cases isQuote : c = quote
      · subst isQuote
        exact ⟨_, .closed .nil rest⟩
      · by_cases isBackslash : c = '\\'.toNat
        · subst isBackslash
          cases rest with
          | nil => exact ⟨_, .backslash .nil⟩
          | cons d rest =>
            rw [length_cons] at size_eq
            by_cases legal : d ∈ escapable
            · exact Ends.escape legal (ih rest.length (by omega) rest rfl)
            · exact ⟨_, .illegalEscape .nil legal rest⟩
        · exact Ends.plain isBackslash isQuote (ih rest.length (by omega) rest rfl)

/-! ## One piece of the reader -/

section

variable {quote c : CodePoint} {n : Nat} {state : State}

theorem next_plain (noBackslash : c ≠ '\\'.toNat) (noQuote : c ≠ quote) (otherwise : State) :
    next quote c otherwise = some otherwise := by
  rw [next, if_neg fun same => noBackslash (eq_of_beq same), if_neg fun same => noQuote (eq_of_beq same)]

theorem next_backslash (quote : CodePoint) (otherwise : State) : next quote '\\'.toNat otherwise = some .escape := rfl

theorem next_quote (isQuote : quote ∈ quotes) (otherwise : State) : next quote quote otherwise = none := by
  have noBackslash : ∀ quote ∈ quotes, (quote == '\\'.toNat) = false := by decide
  rw [next, if_neg (Bool.eq_false_iff.1 (noBackslash quote isQuote)), if_pos (beq_self_eq_true quote)]

/-- A plain character is passed, from any state but that behind a backslash to another such state. -/
theorem scan_plain (outside : state ≠ .escape) (noBackslash : c ≠ '\\'.toNat) (noQuote : c ≠ quote) (rest : Text) :
    ∃ later, later ≠ .escape ∧ scan quote n state (c :: rest) = scan quote (n + 1) later rest := by
  cases state with
  | plain => exact ⟨.plain, State.noConfusion, by rw [scan, next_plain noBackslash noQuote]⟩
  | escape => exact absurd rfl outside
  | longOctal =>
    rw [scan]
    split
    · exact ⟨.shortOctal, State.noConfusion, rfl⟩
    · exact ⟨.longOctal, State.noConfusion, by rw [next_plain noBackslash noQuote]⟩
  | shortOctal => exact ⟨.plain, State.noConfusion, by rw [scan, next_plain noBackslash noQuote]⟩

/-- A backslash leads to the state behind it, from every other. -/
theorem scan_backslash (outside : state ≠ .escape) (rest : Text) :
    scan quote n state ('\\'.toNat :: rest) = scan quote (n + 1) .escape rest := by
  have noDigit : oneOf "01234567" '\\'.toNat = false := by decide
  cases state with
  | plain => rw [scan, next_backslash]
  | escape => exact absurd rfl outside
  | longOctal => rw [scan, if_neg (Bool.eq_false_iff.1 noDigit), next_backslash]
  | shortOctal => rw [scan, next_backslash]

/-- The quote ends the literal, in any state but that behind a backslash. -/
theorem scan_quote (isQuote : quote ∈ quotes) (outside : state ≠ .escape) (rest : Text) :
    scan quote n state (quote :: rest) = ([], some (n + 1)) := by
  have noDigit : ∀ quote ∈ quotes, oneOf "01234567" quote = false := by decide
  cases state with
  | plain => rw [scan, next_quote isQuote]
  | escape => exact absurd rfl outside
  | longOctal => rw [scan, if_neg (Bool.eq_false_iff.1 (noDigit quote isQuote)), next_quote isQuote]
  | shortOctal => rw [scan, next_quote isQuote]

theorem oneOf_of_escapable (legal : c ∈ escapable) :
    oneOf "btnfru\"'\\" c = true ∨ oneOf "0123" c = true ∨ oneOf "4567" c = true := by
  have all : ∀ c ∈ escapable,
      oneOf "btnfru\"'\\" c = true ∨ oneOf "0123" c = true ∨ oneOf "4567" c = true := by decide
  exact all c legal

theorem not_oneOf_of_illegal (illegal : c ∉ escapable) :
    oneOf "btnfru\"'\\" c = false ∧ oneOf "0123" c = false ∧ oneOf "4567" c = false := by
  have apart {s : String} (sub : ∀ c ∈ ofString s, c ∈ escapable) : oneOf s c = false :=
    Bool.eq_false_iff.2 fun among => illegal (sub c (contains_iff_mem.1 among))
  exact ⟨apart (by decide), apart (by decide), apart (by decide)⟩

/-- An escape is passed, from any state but that behind a backslash to another such state. -/
theorem scan_escape (outside : state ≠ .escape) (legal : c ∈ escapable) (rest : Text) : ∃ later, later ≠ .escape ∧
      scan quote n state ('\\'.toNat :: c :: rest) = scan quote (n + 2) later rest := by
  rw [scan_backslash outside, scan]
  split
  · exact ⟨.plain, State.noConfusion, rfl⟩
  · split
    · exact ⟨.longOctal, State.noConfusion, rfl⟩
    · split
      · exact ⟨.shortOctal, State.noConfusion, rfl⟩
      · rename_i noLetter noLong noShort
        rcases oneOf_of_escapable legal with letter | long | short
        · exact absurd letter noLetter
        · exact absurd long noLong
        · exact absurd short noShort

/-- What makes no escape is remarked before anything else. -/
theorem scan_illegal (outside : state ≠ .escape) (illegal : c ∉ escapable) (rest : Text) : ∃ remarks length,
      scan quote n state ('\\'.toNat :: c :: rest) = (⟨.illegalEscape, some c⟩ :: remarks, length) := by
  obtain ⟨noLetter, noLong, noShort⟩ := not_oneOf_of_illegal illegal
  rw [scan_backslash outside, scan, if_neg (Bool.eq_false_iff.1 noLetter), if_neg (Bool.eq_false_iff.1 noLong),
    if_neg (Bool.eq_false_iff.1 noShort)]
  exact ⟨_, _, rfl⟩

/-! ## Whole literals -/

theorem plain_ne_escape : State.plain ≠ .escape := State.noConfusion

variable {body : Text}

/-- **Pieces are passed** one by one, and what is behind them is read in some state that is not that behind a
backslash. -/
theorem scan_pieces (pieces : Pieces quote body) (outside : state ≠ .escape) (rest : Text) :
    ∃ later, later ≠ .escape ∧ scan quote n state (body ++ rest) = scan quote (n + body.length) later rest := by
  induction pieces generalizing n state with
  | nil => exact ⟨state, outside, rfl⟩
  | @plain c body noBackslash noQuote _ ih =>
    obtain ⟨next, nextOutside, passed⟩ := scan_plain outside noBackslash noQuote (body ++ rest)
    obtain ⟨later, laterOutside, rest_eq⟩ := ih nextOutside
    refine ⟨later, laterOutside, passed.trans (rest_eq.trans ?_)⟩
    rw [length_cons, Nat.add_assoc, Nat.add_comm 1]
  | @escape c body legal _ ih =>
    obtain ⟨next, nextOutside, passed⟩ := scan_escape outside legal (body ++ rest)
    obtain ⟨later, laterOutside, rest_eq⟩ := ih nextOutside
    refine ⟨later, laterOutside, passed.trans (rest_eq.trans ?_)⟩
    rw [length_cons, length_cons, Nat.add_assoc, Nat.add_comm 2]

theorem read_closed (isQuote : quote ∈ quotes) (pieces : Pieces quote body) (tail : Text) :
    read quote (body ++ quote :: tail) = { outcome := .ok ⟨.string, body.length + 1⟩ } := by
  obtain ⟨later, outside, passed⟩ := scan_pieces (n := 0) pieces plain_ne_escape (quote :: tail)
  rw [read, passed, scan_quote isQuote outside, Nat.zero_add]

theorem read_illegal (pieces : Pieces quote body) (illegal : c ∉ escapable) (tail : Text) :
    ∃ remarks, (read quote (body ++ '\\'.toNat :: c :: tail)).remarks = ⟨.illegalEscape, some c⟩ :: remarks := by
  obtain ⟨later, outside, passed⟩ := scan_pieces (n := 0) pieces plain_ne_escape ('\\'.toNat :: c :: tail)
  obtain ⟨remarks, length, remarked⟩ := @scan_illegal quote c (0 + body.length) later outside illegal tail
  rw [read, passed, remarked]
  cases length with
  | none => exact ⟨_, rfl⟩
  | some length => exact ⟨_, rfl⟩

theorem read_unterminated (ends : Ends quote text .unterminated) :
    (read quote text).remarks = [⟨.unterminatedLiteral, none⟩] := by
  have remarked (open_ : scan quote 0 .plain text = ([], none)) :
      (read quote text).remarks = [⟨.unterminatedLiteral, none⟩] := by
    rw [read, open_]
    rfl
  cases ends with
  | unterminated pieces =>
    obtain ⟨later, -, passed⟩ := scan_pieces (n := 0) pieces plain_ne_escape []
    rw [append_nil] at passed
    refine remarked (passed.trans ?_)
    cases later <;> rfl
  | backslash pieces =>
    obtain ⟨later, outside, passed⟩ := scan_pieces (n := 0) pieces plain_ne_escape ['\\'.toNat]
    refine remarked (passed.trans ?_)
    rw [scan_backslash outside]
    rfl

/-- What is remarked first about a literal, by the way it ends. -/
def Ending.remark? : Ending → Option Remark
  | .closed _ _ => none
  | .illegalEscape c => some ⟨.illegalEscape, some c⟩
  | .unterminated => some ⟨.unterminatedLiteral, none⟩

variable {ending : Ending}

theorem Ends.head?_remarks (isQuote : quote ∈ quotes) (ends : Ends quote text ending)
    : (read quote text).remarks.head? = ending.remark? := by
  cases ends with
  | closed pieces tail =>
    rw [read_closed isQuote pieces]
    rfl
  | illegalEscape pieces illegal tail =>
    obtain ⟨remarks, remarked⟩ := read_illegal pieces illegal tail
    rw [remarked]
    rfl
  | unterminated pieces =>
    rw [read_unterminated (.unterminated pieces)]
    rfl
  | backslash pieces =>
    rw [read_unterminated (.backslash pieces)]
    rfl

theorem Ends.closed_inv {tail : Text} (ends : Ends quote text (.closed body tail)) :
    Pieces quote body ∧ text = body ++ quote :: tail := by
  cases ends with
  | closed pieces => exact ⟨pieces, rfl⟩

/-- **A literal ends in one way only.** What its reader remarks tells which, and how much it reads tells where it is
closed. -/
theorem Ends.unique (isQuote : quote ∈ quotes) {other : Ending} (ends : Ends quote text ending)
    (ends' : Ends quote text other) : ending = other := by
  have same : ending.remark? = other.remark? :=
    (ends.head?_remarks isQuote).symm.trans (ends'.head?_remarks isQuote)
  cases ending with
  | closed body tail =>
    cases other with
    | closed body' tail' =>
      obtain ⟨pieces, split⟩ := ends.closed_inv
      obtain ⟨pieces', split'⟩ := ends'.closed_inv
      have reads := read_closed isQuote pieces tail
      rw [← split, split', read_closed isQuote pieces' tail'] at reads
      have length : body'.length + 1 = body.length + 1 := by
        injection reads with _ outcome
        injection outcome with lexeme
        injection lexeme
      obtain ⟨rfl, rest⟩ := append_inj (split.symm.trans split') (Nat.succ.inj length).symm
      cases rest
      rfl
    | illegalEscape | unterminated => cases same
  | illegalEscape c =>
    cases other with
    | illegalEscape d =>
      cases same
      rfl
    | closed | unterminated => cases same
  | unterminated =>
    cases other with
    | unterminated => rfl
    | closed | illegalEscape => cases same

end

end Quotation

/-! ## Places of a strict reading -/

/-- `ScansTo p tokens q`: a strict reading comes from `p` to `q`, without complaint, past these tokens. -/
inductive ScansTo : Place → List Token → Place → Prop where
  | here (p : Place) : ScansTo p [] p
  | blanks {p q : Place} {c : CodePoint} {rest : Text} {tokens : List Token} :
    p.rest = c :: rest → Text.isBlank c = true →
    ScansTo (p.skip ((rest.takeWhile Text.isBlank).length + 1)) tokens q → ScansTo p tokens q
  | comment {p q : Place} {c : CodePoint} {rest : Text} {n : Nat} {tokens : List Token} :
    p.rest = c :: rest → Text.isBlank c = false → comment? (c :: rest) = some (.closed n) →
    ScansTo (p.skipComment (n + 1)) tokens q → ScansTo p tokens q
  | lexeme {p q : Place} {c : CodePoint} {rest : Text} {lexeme : Lexeme} {tokens : List Token} :
    p.rest = c :: rest → Text.isBlank c = false → comment? (c :: rest) = none →
    lexeme? c rest = some { outcome := .ok lexeme } →
    ScansTo (p.afterToken lexeme) tokens q → ScansTo p (p.token lexeme :: tokens) q

section

variable {p q : Place} {tokens : List Token}

theorem ScansTo.trans {r : Place} {tokens' : List Token} (first : ScansTo p tokens q) (second : ScansTo q tokens' r) :
    ScansTo p (tokens ++ tokens') r := by
  induction first with
  | here => exact second
  | blanks starts blank _ ih => exact .blanks starts blank (ih second)
  | comment starts visible commented _ ih => exact .comment starts visible commented (ih second)
  | lexeme starts visible uncommented read _ ih => exact .lexeme starts visible uncommented read (ih second)

/-- What is read from a place on is what was read up to a later one, and then what is read from there on. -/
theorem ScansTo.tokensFrom_eq (scans : ScansTo p tokens q) (text : Text) :
    tokensFrom .strict text p = (tokensFrom .strict text q).addTokens tokens := by
  induction scans with
  | here => rfl
  | blanks starts blank _ ih => rw [tokensFrom_cons starts, if_pos blank, ih]
  | comment starts visible commented _ ih =>
    rw [tokensFrom_cons starts, if_neg (Bool.eq_false_iff.1 visible)]
    simp only [commented, ih]
  | lexeme starts visible uncommented read _ ih =>
    rw [tokensFrom_cons starts, if_neg (Bool.eq_false_iff.1 visible)]
    simp only [uncommented, read, ih]
    rfl

/-- The text still to be read at a place is the text from its offset on. -/
theorem ScansTo.rest_eq (scans : ScansTo p tokens q) (text : Text) (here : p.rest = text.drop p.offset) :
    q.rest = text.drop q.offset := by
  have further {n : Nat} {p : Place} (here : p.rest = text.drop p.offset) :
      p.rest.drop n = text.drop (p.offset + n) := by rw [here, drop_drop]
  induction scans with
  | here => exact here
  | blanks _ _ _ ih => exact ih (further here)
  | comment _ _ _ _ ih => exact ih (further here)
  | lexeme _ _ _ _ _ ih => exact ih (further here)

end

/-- A strict reading complains about what starts at a place, and ends. -/
theorem tokensFrom_complaint {p : Place} {c : CodePoint} {rest : Text} {reading : Reading}
    {remark : Remark} (starts : p.rest = c :: rest) (visible : isBlank c = false)
    (uncommented : comment? (c :: rest) = none) (read : lexeme? c rest = some reading)
    (remarked : reading.remarks.head? = some remark) :
    tokensFrom .strict text p = .endedBy [] (p.complaint text remark) := by
  obtain ⟨remarks, remarks_eq⟩ := head?_eq_some_iff.1 remarked
  rw [tokensFrom_cons starts, if_neg (Bool.eq_false_iff.1 visible)]
  simp only [uncommented, read, remarks_eq, map_cons]
  rfl

theorem reason_prefix_message (complaint : Complaint) : complaint.reason.text <+: complaint.message := by
  simp only [Complaint.message, append_assoc]
  exact prefix_append _ _

end Lexer

open Lexer in
/-- **Literals.** Wherever a strict reading comes to a quote, the text behind it ends the literal in one way. A literal
that is closed is a token, and the reading comes to the text behind its quote. A backslash that makes no escape before
that is complained about, and so is a literal without an end; then there are no more tokens. -/
theorem tokenize_quotation {source : Source} {text : Text} {earlier : List Token} {p : Place} {quote : CodePoint}
    (decodes : unescape source.decoded = { outcome := .ok text }) (scans : ScansTo (.start text) earlier p)
    (here : text[p.offset]? = some quote) (isQuote : quote ∈ Quotation.quotes) :
    (∃! ending, Quotation.Ends quote (text.drop (p.offset + 1)) ending) ∧
    (∀ body tail, Quotation.Ends quote (text.drop (p.offset + 1)) (.closed body tail) →
      ∃ q, q.offset = p.offset + (body.length + 2) ∧ q.rest = tail ∧
        ScansTo (.start text) (earlier ++ [⟨.string, quote :: (body ++ [quote]), some p.position, p.pending⟩]) q ∧
        tokenize .strict source = (tokensFrom .strict text q).addTokens
          (earlier ++ [⟨.string, quote :: (body ++ [quote]), some p.position, p.pending⟩])) ∧
    (∀ c, Quotation.Ends quote (text.drop (p.offset + 1)) (.illegalEscape c) →
      ∃ complaint, complaint.near = [c] ∧ ofString "Illegal escape character" <+: complaint.message ∧
        tokenize .strict source = .endedBy earlier complaint) ∧
    (Quotation.Ends quote (text.drop (p.offset + 1)) .unterminated →
      ∃ complaint, ofString "Unterminated character/string literal" <+: complaint.message ∧
        tokenize .strict source = .endedBy earlier complaint) := by
  have starts : p.rest = quote :: text.drop (p.offset + 1) := by
    obtain ⟨inside, rfl⟩ := List.getElem?_eq_some_iff.1 here
    exact (scans.rest_eq text rfl).trans (drop_eq_getElem_cons inside)
  have marks : ∀ quote ∈ Quotation.quotes, isBlank quote = false ∧ quote ≠ '/'.toNat ∧
      (quote == '\''.toNat || quote == '"'.toNat) = true := by decide
  obtain ⟨visible, noSlash, literal⟩ := marks quote isQuote
  have uncommented := comment?_of_ne noSlash (text.drop (p.offset + 1))
  have read := lexeme?_of_quote literal (text.drop (p.offset + 1))
  have complains {ending : Quotation.Ending} {remark : Remark}
      (ends : Quotation.Ends quote (text.drop (p.offset + 1)) ending) (remarked : ending.remark? = some remark) :
      tokenize .strict source = .endedBy earlier (p.complaint text remark) := by
    rw [tokenize_of_unescape decodes, scans.tokensFrom_eq,
      tokensFrom_complaint starts visible uncommented read ((ends.head?_remarks isQuote).trans remarked)]
    simp only [Lexed.addTokens, Lexed.endedBy, append_nil]
  refine ⟨?_, fun body tail ends => ?_, fun c ends => ?_, fun ends => ?_⟩
  · obtain ⟨ending, ends⟩ := Quotation.exists_ends quote (text.drop (p.offset + 1))
    exact ⟨ending, ends, fun other ends' => ends'.unique isQuote ends⟩
  · obtain ⟨pieces, split⟩ := ends.closed_inv
    rw [split] at starts uncommented read
    rw [Quotation.read_closed isQuote pieces] at read
    have whole : p.rest = quote :: (body ++ [quote]) ++ tail := by
      rw [starts, cons_append, append_assoc, singleton_append]
    have length : (quote :: (body ++ [quote])).length = body.length + 2 := by
      rw [length_cons, length_append, length_singleton]
    have token : p.token ⟨.string, body.length + 1⟩ =
        ⟨.string, quote :: (body ++ [quote]), some p.position, p.pending⟩ := by
      rw [Place.token, whole, take_left' length]
    have passed := scans.trans (.lexeme starts visible uncommented read (.here _))
    rw [token] at passed
    refine ⟨_, rfl, ?_, passed, (tokenize_of_unescape decodes _).trans (passed.tokensFrom_eq text)⟩
    rw [Place.rest_afterToken, whole, drop_left' length]
  · exact ⟨_, rfl, reason_prefix_message (p.complaint text ⟨.illegalEscape, some c⟩), complains ends rfl⟩
  · exact ⟨_, reason_prefix_message (p.complaint text ⟨.unterminatedLiteral, none⟩), complains ends rfl⟩

/-- A quote behind a backslash does not end the literal, and neither does what follows an octal escape. -/
theorem tokenize_quotation_octal : ∃ q : Lexer.Place, q.rest = Text.ofString ";" ∧
      tokenize .strict (.text "x'\\07\\'';") = (Lexer.tokensFrom .strict "x'\\07\\'';" q).addTokens
        [⟨.identifier, "x", some ⟨1, 1⟩, none⟩, ⟨.string, "'\\07\\''", some ⟨1, 2⟩, none⟩] := by
  have decodes : Lexer.unescape (Source.text "x'\\07\\'';").decoded = { outcome := .ok "x'\\07\\'';" } := by
    simp [Lexer.unescape, Source.decoded, ofString, Lexer.unescapeFrom]
  have scans : Lexer.ScansTo (.start "x'\\07\\'';") [⟨.identifier, "x", some ⟨1, 1⟩, none⟩]
      ((Lexer.Place.start "x'\\07\\'';").afterToken ⟨.identifier, 0⟩) := by
    have starts : (Lexer.Place.start "x'\\07\\'';").rest = 'x'.toNat :: ofString "'\\07\\'';" := rfl
    exact .lexeme starts (by decide) (by decide) (by rfl) (.here _)
  have ends : Lexer.Quotation.Ends '\''.toNat "\\07\\'';" (.closed "\\07\\'" ";") :=
    .closed (.escape (by decide) (.plain (by decide) (by decide) (.escape (by decide) .nil))) _
  obtain ⟨-, closed, -⟩ := tokenize_quotation decodes scans rfl (by decide)
  obtain ⟨q, -, rest, -, read⟩ := closed _ _ ends
  exact ⟨q, rest, read⟩

end JavaSource

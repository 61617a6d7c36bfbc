import JavaSource.Lexer.Comment
import JavaSource.Lexer.Escapes
import JavaSource.Lexer.Lexeme
import JavaSource.Text.Encoding

/-!
# From source text to tokens

`tokenize` reads a source text to its end, or up to the first failure. In strict mode the first complaint
is a failure. In lenient mode complaints are kept and reading goes on behind them.
-/

namespace JavaSource

/-- Source text, as text or as bytes. -/
inductive Source where
  | text (text : Text)
  | bytes (bytes : List UInt8)

inductive Mode where
  /-- The first complaint ends the reading. -/
  | strict
  /-- Complaints are kept, and the reading goes on. -/
  | lenient
  deriving DecidableEq, Repr

structure Lexed where
  tokens : List Token := []
  complaints : List Lexer.Complaint := []
  /-- Why reading stopped before the end of the text, if it did. -/
  failure : Option Lexer.Failure := none

namespace Lexed

def addToken (token : Token) (later : Lexed) : Lexed := { later with tokens := token :: later.tokens }

def addComplaints (complaints : List Lexer.Complaint) (later : Lexed) : Lexed :=
  { later with complaints := complaints ++ later.complaints }

def faulty (f : Lexer.Fault) : Lexed := { failure := some (.fault f) }

/-- Goes on with `later` after complaints. In strict mode the first of them is the end. -/
def afterComplaints (mode : Mode) (complaints : List Lexer.Complaint) (later : Lexed) : Lexed :=
  match mode, complaints with
  | .strict, c :: _ => { complaints := [c], failure := some (.complaint c) }
  | _, _ => later.addComplaints complaints

end Lexed

namespace Lexer

structure Place where
  rest : Text
  offset : Nat := 0
  line : Nat := 1
  lineStart : Nat := 0
  pending : Option Text := none
  /-- The text from the end of the last token on. -/
  gap : Text

namespace Place

def start (text : Text) : Place := { rest := text, gap := text }

def position (p : Place) : Position := ⟨p.line, p.offset - p.lineStart + 1⟩

/-- The place after `n` more characters, whose newlines do not count. -/
def advance (p : Place) (n : Nat) : Place :=
  { p with rest := p.rest.drop n, offset := p.offset + n }

/-- The place after `n` more characters, whose newlines count. -/
def skip (p : Place) (n : Nat) : Place :=
  let gone := p.rest.take n
  let lineStart := match Text.afterLastNewline? gone with
    | some tail => p.offset + gone.length - tail.length
    | none => p.lineStart
  { p.advance n with line := p.line + Text.countNewlines gone, lineStart }

def skipComment (p : Place) (n : Nat) : Place :=
  let comment := p.rest.take n
  { p.skip n with pending := if isJavadoc comment then some comment else p.pending }

def token (p : Place) (lexeme : Lexeme) : Token :=
  { cls := lexeme.cls
    value := p.rest.take (lexeme.further + 1)
    position := some p.position
    javadoc := p.pending }

def afterToken (p : Place) (lexeme : Lexeme) : Place :=
  let q := p.advance (lexeme.further + 1)
  { q with pending := none, gap := q.rest }

def complaint (text : Text) (p : Place) (remark : Remark) : Complaint :=
  { reason := remark.reason
    near := match remark.near with
      | some c => [c]
      | none => p.gap.take 1
    line := p.line
    excerpt := lineAround text p.offset }

@[simp] theorem rest_advance (p : Place) (n : Nat) : (p.advance n).rest = p.rest.drop n := rfl

@[simp] theorem rest_skip (p : Place) (n : Nat) : (p.skip n).rest = p.rest.drop n := rfl

@[simp] theorem rest_skipComment (p : Place) (n : Nat) :
    (p.skipComment n).rest = p.rest.drop n := rfl

@[simp] theorem rest_afterToken (p : Place) (lexeme : Lexeme) :
    (p.afterToken lexeme).rest = p.rest.drop (lexeme.further + 1) := rfl

end Place

def tokensFrom (mode : Mode) (text : Text) (p : Place) : Lexed :=
  match _ : p.rest with
  | [] => {}
  | c :: rest =>
    if Text.isBlank c then
      tokensFrom mode text (p.skip ((rest.takeWhile Text.isBlank).length + 1))
    else
      match comment? (c :: rest) with
      | some (.closed n) => tokensFrom mode text (p.skipComment (n + 1))
      | some .unterminated =>
        Lexed.afterComplaints mode [p.complaint text ⟨.unterminatedComment, none⟩] {}
      | none =>
        match lexeme? c rest with
        | none =>
          Lexed.afterComplaints mode [p.complaint text ⟨.unknownCharacter, some c⟩]
            (tokensFrom mode text (p.advance 1))
        | some reading =>
          let complaints := reading.remarks.map (p.complaint text)
          Lexed.afterComplaints mode complaints
            (match reading.outcome with
              | .error f => Lexed.faulty f
              | .ok lexeme => (tokensFrom mode text (p.afterToken lexeme)).addToken (p.token lexeme))
termination_by p.rest.length
decreasing_by
  all_goals
    simp only [Place.rest_advance, Place.rest_skip, Place.rest_skipComment, Place.rest_afterToken,
      List.length_drop, List.length_cons, *]
    omega

/-- The complaint about an invalid escape. Escapes are decoded before lines are counted, so it always
names the first line. -/
def escapeComplaint (text digits : Text) : Complaint :=
  { reason := .invalidUnicodeEscape, near := digits, line := 1, excerpt := lineAround text 0 }

def tokenizeUnescaped (mode : Mode) (unescaped : Unescaped) : Lexed :=
  match unescaped.outcome with
  | .error f => Lexed.faulty f
  | .ok text => tokensFrom mode text (Place.start text)

def tokenizeText (mode : Mode) (text : Text) : Lexed :=
  let unescaped := unescape text
  Lexed.afterComplaints mode (unescaped.invalid.map (escapeComplaint text))
    (tokenizeUnescaped mode unescaped)

/-- Reads the tokens of bytes. An invalid escape in them is a fault, since a complaint shows a line of the
text, and bytes have none. -/
def tokenizeBytes (mode : Mode) (bytes : List UInt8) : Lexed :=
  let unescaped := unescape (Text.ofBytes bytes)
  if unescaped.invalid.isEmpty then tokenizeUnescaped mode unescaped
  else Lexed.faulty .invalidEscapeInBytes

end Lexer

def tokenize (mode : Mode) : Source → Lexed
  | .text text => Lexer.tokenizeText mode text
  | .bytes bytes => Lexer.tokenizeBytes mode bytes

end JavaSource

import JavaSource.Cursor.Indexed
import JavaSource.Grammar.Failure

/-!
# Parsers

A parser is a cursor over tokens, together with what tracing needs: whether it is on, how deep the rules
nest, and what was printed. A failure leaves the parser as it found it, so the state goes around failures.

Behind the last token a look gives nothing.
-/

namespace JavaSource

/-- A parser between two calls. -/
structure Parser where
  tokens : Cursor Token
  debug : Bool := false
  /-- The number of traced rules that are being followed, once there was one. -/
  depth : Option Nat := none
  /-- The printed lines, the last one first. -/
  printed : List Text := []

/-- What is done with a parser: it may fail, and the parser is kept also then. -/
abbrev ParseM := ExceptT ParseFailure (StateM Parser)

namespace Parser

def ofTokens (tokens : List Token) : Parser := { tokens := Cursor.ofList tokens }

def run {α : Type} (p : Parser) (action : ParseM α) : Except ParseFailure α × Parser :=
  StateT.run (ExceptT.run action) p

def next : ParseM Token := fun p =>
  match p.tokens.next with
  | (.ok t, tokens) => (.ok t, { p with tokens })
  | (.error _, tokens) => (.error .endOfInput, { p with tokens })

def look (i : Int) : ParseM (Option Token) := fun p =>
  let (t, tokens) := p.tokens.look i
  (.ok t, { p with tokens })

def last : ParseM (Option Token) := fun p => (.ok p.tokens.last, p)

def push : ParseM Unit := fun p => (.ok (), { p with tokens := p.tokens.push })

/-- Gives up the last marker, going back to it if asked to. -/
def pop (reset : Bool) : ParseM Unit := fun p =>
  match p.tokens.pop reset with
  | (.ok (), tokens) => (.ok (), { p with tokens })
  | (.error _, tokens) => (.error .noMarker, { p with tokens })

/-- Does something and tells how it ended, without failing. -/
def outcome {α : Type} (action : ParseM α) : ParseM (Except ParseFailure α) := fun p =>
  let (result, p) := p.run action
  (.ok result, p)

def print (line : Text) : ParseM Unit := modify fun p => { p with printed := line :: p.printed }

/-- What was printed, each line with its end. -/
def printedText (p : Parser) : Text :=
  p.printed.reverse.flatMap (· ++ [Text.newline])

end Parser

end JavaSource

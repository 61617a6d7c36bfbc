import JavaSource.Lexer.Basic
import JavaSource.Parser.Request

/-!
# Parsing source text

The ways to turn a source text into a tree. An expression or a signature may be given without the semicolon
or the body that makes it a piece of source text; it is added here.
-/

namespace JavaSource

inductive SourceFailure where
  | lexing (failure : Lexer.Failure)
  | parsing (failure : ParseFailure)
  | bytesForText

inductive Entry where
  | unit
  | expression
  | memberSignature
  | constructorSignature
  | type
  | typeSignature
  | request (mode : Mode) (request : Request)

namespace Entry

def semicolon : CodePoint := ';'.toNat

def withSemicolon (text : Text) : Text :=
  if text.getLast? = some semicolon then text else text ++ [semicolon]

/-- The text with an empty body at its end, in place of a semicolon. -/
def withBody (text : Text) : Text :=
  (if text.getLast? = some semicolon then text.dropLast else text) ++ Text.ofString "\x7b \x7d"

/-- The source text with something done to its end; bytes have to be decoded before that. -/
def ended (edit : Text → Text) : Source → Except SourceFailure Source
  | .text text => .ok (.text (edit text))
  | .bytes _ => .error .bytesForText

def prepare : Entry → Source → Except SourceFailure Source
  | expression | memberSignature => ended withSemicolon
  | constructorSignature | typeSignature => ended withBody
  | _ => .ok

def asked : Entry → Request
  | unit => .unit
  | expression => .rule .expression
  | memberSignature | constructorSignature => .rule .memberDeclaration
  | type => .rule .type
  | typeSignature => .rule .classOrInterfaceDeclaration
  | request _ r => r

def mode : Entry → Mode
  | request mode _ => mode
  | _ => .strict

end Entry

/-- A parser of a source text, if it has tokens without failure. -/
def Parser.ofSource (mode : Mode) (source : Source) : Except Lexer.Failure Parser :=
  let lexed := tokenize mode source
  match lexed.failure with
  | some failure => .error failure
  | none => .ok (.ofTokens lexed.tokens)

def Entry.parse (entry : Entry) (source : Source) : Except SourceFailure Tree := do
  let source ← entry.prepare source
  match Parser.ofSource entry.mode source with
  | .error failure => .error (.lexing failure)
  | .ok p =>
    match (p.run (Parser.perform plainly entry.asked)).1 with
    | .ok tree => .ok tree
    | .error failure => .error (.parsing failure)

end JavaSource

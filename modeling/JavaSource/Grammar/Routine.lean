import JavaSource.Grammar.Failure
import JavaSource.Grammar.Rule
import JavaSource.Token.Vocabulary

/-!
# Routines

A routine is a program over the tokens in front of a parser: it looks at tokens, takes them, follows other
rules, repeats, and tries one reading before another. It is data, so that one interpreter fixes what all
rules do to the state of the parser, and tracing is a matter of the interpreter alone.

What stands behind the last token is no token: a look there gives nothing.
-/

namespace JavaSource.Grammar

/-- A program over the tokens in front of a parser. -/
inductive Routine : Type → Type 1 where
  | pure {α : Type} (a : α) : Routine α
  | fail {α : Type} (failure : ParseFailure) : Routine α
  | next {α : Type} (k : Token → Routine α) : Routine α
  | look {α : Type} (i : Int) (k : Option Token → Routine α) : Routine α
  | call {α : Type} (r : Rule) (k : r.Result → Routine α) : Routine α
  /-- Tries `body`. After a syntax error in it the tokens are read again by `otherwise`. -/
  | attempt {α β : Type} (body : Routine β) (k : β → Routine α) (otherwise : Routine α) : Routine α
  /-- Repeats `body`, from the state `s` on, until it says that it is done. -/
  | loop {α σ : Type} (s : σ) (body : σ → Routine (σ × Bool)) (k : σ → Routine α) : Routine α

namespace Routine

def bind {α β : Type} : Routine α → (α → Routine β) → Routine β
  | .pure a, f => f a
  | .fail failure, _ => .fail failure
  | .next k, f => .next fun t => bind (k t) f
  | .look i k, f => .look i fun t => bind (k t) f
  | .call r k, f => .call r fun x => bind (k x) f
  | .attempt body k otherwise, f => .attempt body (fun x => bind (k x) f) (bind otherwise f)
  | .loop s body k, f => .loop s body fun x => bind (k x) f

instance : Monad Routine where
  pure := .pure
  bind := bind

end Routine

/-! ## Tokens -/

/-- What a token has to be. -/
inductive Pattern where
  | word (value : Text)
  | cls (cls : TokenClass)
  | any
  deriving DecidableEq, Repr

instance : Coe String Pattern := ⟨fun s => .word (Text.ofString s)⟩

instance : Coe TokenClass Pattern := ⟨.cls⟩

/-- The class of a token; the end of the input is of a class of its own. -/
def classOf (t : Option Token) : TokenClass := (t.map (·.cls)).getD .endOfInput

def valueOf (t : Option Token) : Option Text := t.map (·.value)

def positionOf (t : Option Token) : Option Position := t.bind (·.position)

def javadocOf (t : Option Token) : Option Text := t.bind (·.javadoc)

def isOf (t : Option Token) (c : TokenClass) : Bool := (classOf t).isA c

def isWord (t : Option Token) (s : String) : Bool := valueOf t == some (Text.ofString s)

def isAmong (t : Option Token) (texts : List Text) : Bool := (valueOf t).any texts.contains

def Pattern.fits (t : Option Token) : Pattern → Bool
  | .word value => valueOf t == some value
  | .cls c => isOf t c
  | .any => true

/-- What is said where a token does not fit a pattern. -/
def Pattern.expected : Pattern → Text
  | .word value => Text.ofString "Expected '" ++ value ++ Text.ofString "'"
  | .cls c => Text.ofString "Expected " ++ Text.ofString c.name
  | .any => []

/-! ## Simple routines -/

def parse (r : Rule) : Routine r.Result := .call r .pure

def lookAt (i : Int) : Routine (Option Token) := .look i .pure

def peek : Routine (Option Token) := lookAt 0

def take : Routine Token := .next .pure

def illegal {α : Type} (description : Text) : Routine α :=
  .look 0 fun t => .fail (.illegal description t)

/-- Takes tokens that fit the patterns one by one, and gives the value of the last. The token that does not
fit is taken too, so the error is at the one after it. -/
def acceptFrom (value : Text) : List Pattern → Routine Text
  | [] => .pure value
  | p :: rest => do
    let t ← take
    if p.fits (some t) then acceptFrom t.value rest else illegal p.expected

def accept (patterns : List Pattern) : Routine Text :=
  if patterns.isEmpty then .fail .noPatterns else acceptFrom [] patterns

/-- Whether the tokens from `i` on fit the patterns. -/
def wouldAcceptFrom (i : Int) : List Pattern → Routine Bool
  | [] => .pure true
  | p :: rest => do
    let t ← lookAt i
    if p.fits t then wouldAcceptFrom (i + 1) rest else return false

def wouldAccept (patterns : List Pattern) : Routine Bool :=
  if patterns.isEmpty then .fail .noPatterns else wouldAcceptFrom 0 patterns

def takeMany : Nat → Routine Unit
  | 0 => .pure ()
  | n + 1 => .next fun _ => takeMany n

/-- Takes the next tokens if they fit the patterns, and says whether they do. -/
def tryAccept (patterns : List Pattern) : Routine Bool := do
  let fits ← wouldAccept patterns
  if fits then takeMany patterns.length
  return fits

/-- Whether the use of an annotation starts `i` ahead. -/
def annotationAt (i : Int) : Routine Bool := do
  let t ← lookAt i
  if isOf t .atSign then
    let u ← lookAt (i + 1)
    return !isWord u "interface"
  else return false

/-- Whether the declaration of an annotation type starts `i` ahead. -/
def annotationDeclarationAt (i : Int) : Routine Bool := do
  let t ← lookAt i
  if isOf t .atSign then
    let u ← lookAt (i + 1)
    return isWord u "interface"
  else return false

/-! ## Repetition -/

def many {β : Type} (item : Routine (β × Bool)) : Routine (List β) :=
  .loop [] (fun acc => do let (x, more) ← item; return (x :: acc, more)) fun acc => .pure acc.reverse

def separated {β : Type} (separator : Pattern) (item : Routine β) : Routine (List β) :=
  many do
    let x ← item
    let more ← tryAccept [separator]
    return (x, more)

def whileTrue {β : Type} (test : Routine Bool) (item : Routine β) : Routine (List β) :=
  .loop [] (fun acc => do
    if ← test then
      let x ← item
      return (x :: acc, true)
    else return (acc, false)) fun acc => .pure acc.reverse

def manyUntil {β : Type} (stop : Pattern) (item : Routine β) : Routine (List β) :=
  whileTrue (do let done ← wouldAccept [stop]; return !done) item

end JavaSource.Grammar

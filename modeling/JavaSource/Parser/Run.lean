import JavaSource.Grammar.Body
import JavaSource.Parser.State

/-!
# Following rules

`Routine.exec` says what each step of a routine does to a parser, and `Rule.run` follows a rule. Both are
total: a rule follows other rules to a bounded depth, and a loop takes a bounded number of turns. The bounds
are never met by a rule that ends, since no rule follows itself, and no loop goes on, without taking a token
or looking further ahead.
-/

namespace JavaSource

open Grammar

namespace Parser

/-- Repeats a step until it says that it is done, at most `n` times. -/
def iterate {σ : Type} (step : σ → ParseM (σ × Bool)) : Nat → σ → ParseM σ
  | 0, _ => throw .endless
  | n + 1, s => do
    let (s, more) ← step s
    if more then iterate step n s else return s

/-- Tries one thing. After a syntax error the parser goes back to where it was and does the other thing;
after any other failure it goes back too, and fails. -/
def attempt {α : Type} (action : ParseM α) : ParseM (Option α) := do
  push
  match ← outcome action with
  | .ok a =>
    pop false
    return some a
  | .error failure =>
    pop true
    if failure.isIllegal then return none else throw failure

def turns (p : Parser) : Nat := p.tokens.remaining + 2

def nesting (p : Parser) : Nat := Rule.all.length * (p.tokens.remaining + 1) + 1

end Parser

/-- What a routine does to a parser, where `follow` follows the rules that it calls. -/
def Grammar.Routine.exec (follow : (r : Rule) → ParseM r.Result) {α : Type} : Routine α → ParseM α
  | .pure a => return a
  | .fail failure => throw failure
  | .next k => do
    let t ← Parser.next
    exec follow (k t)
  | .look i k => do
    let t ← Parser.look i
    exec follow (k t)
  | .call r k => do
    let x ← follow r
    exec follow (k x)
  | .attempt body k otherwise => do
    match ← Parser.attempt (exec follow body) with
    | some x => exec follow (k x)
    | none => exec follow otherwise
  | .loop s body k => do
    let p ← get
    let s ← Parser.iterate (fun s => exec follow (body s)) p.turns s
    exec follow (k s)

/-- What surrounds the following of a rule, or of anything else that has a name. -/
abbrev Wrapper := {α : Type} → String → ParseM α → ParseM α

def plainly : Wrapper := fun _ action => action

/-- Follows a rule, with rules nested at most `n` deep. -/
def Grammar.Rule.run (wrap : Wrapper) : Nat → (r : Rule) → ParseM r.Result
  | 0, _ => throw .endless
  | n + 1, r => wrap r.name (r.body.exec (run wrap n))

namespace Parser

def follow (wrap : Wrapper) (r : Rule) : ParseM r.Result := do
  let p ← get
  r.run wrap p.nesting

def exec (wrap : Wrapper) {α : Type} (routine : Routine α) : ParseM α :=
  routine.exec (follow wrap)

end Parser

end JavaSource

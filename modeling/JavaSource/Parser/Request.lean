import JavaSource.Parser.Trace
import JavaSource.Parser.Unit

/-!
# Requests to a parser

A parser can be asked to follow a rule, to test or take tokens, to move its markers, and to build an
operation. Requests are made one after the other on one parser, and a failed one leaves the parser as the
failure found it.
-/

namespace JavaSource

open Grammar

inductive Request where
  | unit
  | rule (r : Rule)
  | accept (patterns : List Pattern)
  | wouldAccept (patterns : List Pattern)
  | tryAccept (patterns : List Pattern)
  | illegal (description : Text)
  | annotationAt (i : Int)
  | annotationDeclarationAt (i : Int)
  | operation (parts : List Tree) (start : Int)
  | setDebug (on : Bool)
  | next
  | look (i : Int)
  | last
  | push
  | pop (reset : Bool)
  /-- Do what cannot be done. -/
  | refused (failure : ParseFailure)

namespace Parser

def tokenOrEnd : Option Token → Tree
  | some t => .ofToken t
  | none => .token .endOfInput .null none none [] none

/-- Does what it is asked to do, and gives the answer as a tree. -/
def perform (wrap : Wrapper) : Request → ParseM Tree
  | .unit => compilationUnit wrap
  | .rule r => r.toTree <$> follow wrap r
  | .accept patterns => Tree.text <$> exec wrap (Grammar.accept patterns)
  | .wouldAccept patterns => Tree.bool <$> exec wrap (Grammar.wouldAccept patterns)
  | .tryAccept patterns => Tree.bool <$> exec wrap (Grammar.tryAccept patterns)
  | .illegal description => exec wrap (Grammar.illegal description)
  | .annotationAt i => Tree.bool <$> exec wrap (Grammar.annotationAt i)
  | .annotationDeclarationAt i => Tree.bool <$> exec wrap (Grammar.annotationDeclarationAt i)
  | .operation parts start => liftM (buildOperation start parts)
  | .setDebug on => do
    modify fun p => { p with debug := on }
    return .null
  | .next => Tree.ofToken <$> next
  | .look i => tokenOrEnd <$> look i
  | .last => do
    let t ← last
    return .ofOption (t.map .ofToken)
  | .push => do
    push
    return .null
  | .pop reset => do
    pop reset
    return .null
  | .refused failure => throw failure

structure Answer where
  result : Except ParseFailure Tree
  /-- The parser after the request, with what was printed during it. -/
  parser : Parser

def answers (wrap : Wrapper) (p : Parser) : List Request → List Answer
  | [] => []
  | request :: rest =>
    let (result, p) := { p with printed := [] }.run (perform wrap request)
    ⟨result, p⟩ :: answers wrap p rest

end Parser

end JavaSource

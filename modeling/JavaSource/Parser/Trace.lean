import JavaSource.Parser.Run

/-!
# Tracing

A traced parser counts how deep its rules nest. With debugging on it also prints a line where a rule starts
and one where it ends, also where it ends with a failure. Printing looks at the next token, and that shows
in the token that was looked at last.
-/

namespace JavaSource.Parser

/-- The words for a token in a trace; the end of the input is a token here. -/
def tokenWords : Option Token → Text
  | some t => t.describe
  | none => Token.describeAs .endOfInput "None" none

def wordsOr (t : Option Text) : Text := t.getD "None"

def depthText (depth : Nat) : Text := Text.ofNatTwoDigits depth

def entryLine (depth : Nat) (name : String) (next : Option Token) : Text :=
  depthText depth ++ Text.ofString " " ++ Text.copies depth '-' ++ Text.ofString "> " ++
    Text.ofString name ++ Text.ofString "(" ++ tokenWords next ++ Text.ofString ")"

def exitLine (depth : Nat) (name : String) (start : Option Token) (last : Option Token)
    (message : Text) : Text :=
  depthText depth ++ Text.ofString " <" ++ Text.copies depth '-' ++ Text.ofString " " ++
    Text.ofString name ++ Text.ofString "(" ++ wordsOr (start.map (·.value)) ++
    Text.ofString ", " ++ wordsOr (last.map (·.describe)) ++ Text.ofString ") " ++ message

def outcomeMessage {α : Type} : Except ParseFailure α → Text
  | .ok _ => []
  | .error failure => failure.message

def setDepth (depth : Nat) : ParseM Unit := modify fun p => { p with depth := some depth }

/-- Counts the depth around an action, and prints the lines of a trace if debugging is on. -/
def traced : Wrapper := fun name action => do
  let p ← get
  let depth := p.depth.getD 0
  if p.debug then
    let start ← look 0
    print (entryLine depth name start)
    setDepth (depth + 1)
    let result ← outcome action
    let last ← last
    print (exitLine depth name start last (outcomeMessage result))
    setDepth depth
    liftExcept result
  else
    setDepth (depth + 1)
    let result ← outcome action
    setDepth depth
    liftExcept result
where
  liftExcept {β : Type} : Except ParseFailure β → ParseM β
    | .ok b => return b
    | .error failure => throw failure

end JavaSource.Parser

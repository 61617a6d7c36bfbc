import JavaSource.Token.Basic

/-!
# Failures of parsing

Only a syntax error can be recovered from, by reading the same tokens in another way. The other failures
end the parse.
-/

namespace JavaSource

/-- Why parsing failed. -/
inductive ParseFailure where
  /-- A syntax error: what is wrong, and the token in front of the parser, if one is left. -/
  | illegal (description : Text) (found : Option Token)
  | endOfInput
  | noPatterns
  /-- The value of the token after the last one is looked for in a text. -/
  | endInText
  | noMarker
  /-- A chain of operands and operators holds no operator of the levels it may hold. -/
  | noOperator
  | noLevel
  /-- A method is called that its object does not have. -/
  | noMethod (object name : String)
  /-- A method is called with arguments that it does not take. -/
  | wrongArguments
  /-- A look-ahead goes on without end. -/
  | endless
  deriving DecidableEq, Repr

namespace ParseFailure

def isIllegal : ParseFailure → Bool
  | illegal .. => true
  | _ => false

def message : ParseFailure → Text
  | illegal description _ => description
  | endOfInput => []
  | noPatterns => "Missing acceptable values"
  | endInText => "'in <string>' requires string as left operand, not NoneType"
  | noMethod object name =>
    Text.ofString "'" ++ Text.ofString object ++ Text.ofString "' object has no attribute '" ++
      Text.ofString name ++ Text.ofString "'"
  | noMarker | noOperator | noLevel | wrongArguments | endless => []

end ParseFailure

end JavaSource

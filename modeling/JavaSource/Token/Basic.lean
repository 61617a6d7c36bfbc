import JavaSource.Text.Basic
import JavaSource.Token.Class

/-!
# Tokens

A token is a piece of source text with its class, its place and the documentation comment before it.
-/

namespace JavaSource

/-- A place in a source text; lines and columns both start at one. -/
structure Position where
  line : Nat
  column : Nat
  deriving DecidableEq, Repr

structure Token where
  cls : TokenClass
  value : Text
  position : Option Position := none
  /-- The documentation comment that stands right before the token, if one does. -/
  javadoc : Option Text := none
  deriving DecidableEq, Repr

namespace Position

def describe (p : Position) : Text :=
  Text.ofString " line " ++ Text.ofNat p.line ++ Text.ofString ", position " ++ Text.ofNat p.column

end Position

namespace Token

/-- The words that name a token: class, value, and place if it has one. -/
def describeAs (cls : TokenClass) (value : Text) (position : Option Position) : Text :=
  Text.ofString cls.name ++ Text.ofString " \"" ++ value ++ Text.ofString "\"" ++
    (match position with
      | some p => p.describe
      | none => [])

def describe (t : Token) : Text := describeAs t.cls t.value t.position

def spelled (cls : TokenClass) (s : String) : Token := { cls, value := Text.ofString s }

end Token

end JavaSource

import JavaSource.Lexer.Complaint
import JavaSource.Text.Hexadecimal

/-!
# Unicode escapes

Before anything else, unicode escapes in the source text become the characters they stand for: a
backslash, a `u` and four hexadecimal digits are one character. A backslash is only eligible if it is
not itself the second of a pair. Any number of `u` may follow it, and then the four characters that
give the code.
-/

namespace JavaSource.Lexer

structure Unescaped where
  /-- The text after decoding, if it came to an end. -/
  outcome : Except Fault Text
  /-- The invalid codes met on the way, in order. -/
  invalid : List Text := []

/-- What was decoded later, after this text and these invalid codes. -/
def Unescaped.after (u : Unescaped) (text : Text) (invalid : List Text) : Unescaped :=
  { outcome := u.outcome.map (text ++ ·), invalid := invalid ++ u.invalid }

/-- Where the decoding stands between two characters. -/
inductive EscapeState where
  | plain
  | backslash
  /-- After a backslash and this many `u`. -/
  | marker (us : Nat)

/-- Decodes the escapes of a text. `copied` is the text since the last escape, reversed, and
`earlier` the code of the last escape. An invalid escape takes the code of the one before it.
Where the text ends inside a marker, the text since the last escape is written twice, once for the
marker and once for the end. -/
def unescapeFrom (copied : Text) (earlier : Option Int) : EscapeState → Text → Unescaped
  | .plain, [] => { outcome := .ok copied.reverse }
  | .backslash, [] => { outcome := .ok (copied.reverse ++ ['\\'.toNat]) }
  | .marker us, [] =>
    { outcome := .ok (copied.reverse ++ copied.reverse ++ ['\\'.toNat] ++ Text.copies us 'u') }
  | .plain, c :: rest =>
    if c == '\\'.toNat then unescapeFrom copied earlier .backslash rest
    else unescapeFrom (c :: copied) earlier .plain rest
  | .backslash, c :: rest =>
    if c == 'u'.toNat then unescapeFrom copied earlier (.marker 1) rest
    else unescapeFrom (c :: '\\'.toNat :: copied) earlier .plain rest
  | .marker us, c :: rest =>
    if c == 'u'.toNat then unescapeFrom copied earlier (.marker (us + 1)) rest
    else
      let digits := (c :: rest).take 4
      let code := Text.hexNumber? digits
      let invalid := if code.isSome then [] else [digits]
      match code.or earlier with
      | none => { outcome := .error .noEarlierCode, invalid }
      | some code =>
        if code < 0 then { outcome := .error .negativeCode, invalid }
        else
          (unescapeFrom [] (some code) .plain (rest.drop 3)).after
            (copied.reverse ++ [code.toNat]) invalid
termination_by _ text => text.length

def unescape (text : Text) : Unescaped := unescapeFrom [] none .plain text

end JavaSource.Lexer

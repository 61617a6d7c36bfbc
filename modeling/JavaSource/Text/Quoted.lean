import JavaSource.Text.Printable

/-!
# Quoted text

A text between quotes, with escapes for what cannot be printed. The quote is `'`, or `"` when the text
holds `'` and no `"`.
-/

namespace JavaSource.Text

/-- The lower case hexadecimal digits of `n`, at least `width` of them. -/
def hexDigitsOf (width n : Nat) : Text :=
  let digits := (Nat.toDigits 16 n).map Char.toNat
  copies (width - digits.length) '0' ++ digits

def escaped (quote c : CodePoint) : Text :=
  if c == quote || c == '\\'.toNat then ['\\'.toNat, c]
  else if c == 10 then "\\n"
  else if c == 13 then "\\r"
  else if c == 9 then "\\t"
  else if isPrintable c then [c]
  else if c < 0x100 then ofString "\\x" ++ hexDigitsOf 2 c
  else if c < 0x10000 then ofString "\\u" ++ hexDigitsOf 4 c
  else ofString "\\U" ++ hexDigitsOf 8 c

def quoted (text : Text) : Text :=
  let quote := if text.contains '\''.toNat && !text.contains '"'.toNat then '"' else '\''
  [quote.toNat] ++ text.flatMap (escaped quote.toNat) ++ [quote.toNat]

end JavaSource.Text

import JavaSource.Text.Basic

/-!
# Decoding bytes

Source bytes are UTF-8 if they are well-formed UTF-8 throughout, and Latin-1 otherwise.
-/

namespace JavaSource.Text

def isContinuation (b : UInt8) : Bool := b &&& 0xC0 == 0x80

def continuationBits (b : UInt8) : Nat := b.toNat % 64

def utf8Pair? (a b : UInt8) : Option CodePoint :=
  if 0xC2 ≤ a && a ≤ 0xDF && isContinuation b then
    some (a.toNat % 32 * 64 + continuationBits b)
  else none

/-- The code point in three bytes of UTF-8, which is no surrogate and needs three bytes. -/
def utf8Triple? (a b c : UInt8) : Option CodePoint :=
  let value := a.toNat % 16 * 4096 + continuationBits b * 64 + continuationBits c
  if 0xE0 ≤ a && a ≤ 0xEF && isContinuation b && isContinuation c &&
      0x800 ≤ value && !isSurrogate value then
    some value
  else none

/-- The code point in four bytes of UTF-8, which lies above the first plane. -/
def utf8Quadruple? (a b c d : UInt8) : Option CodePoint :=
  let value := a.toNat % 8 * 262144 + continuationBits b * 4096 + continuationBits c * 64 +
    continuationBits d
  if 0xF0 ≤ a && a ≤ 0xF4 && isContinuation b && isContinuation c && isContinuation d &&
      0x10000 ≤ value && value ≤ 0x10FFFF then
    some value
  else none

def ofUtf8? : List UInt8 → Option Text
  | [] => some []
  | a :: rest =>
    if a < 0x80 then (ofUtf8? rest).map (a.toNat :: ·)
    else match rest with
      | [] => none
      | b :: rest =>
        match utf8Pair? a b with
        | some value => (ofUtf8? rest).map (value :: ·)
        | none =>
          match rest with
          | [] => none
          | c :: rest =>
            match utf8Triple? a b c with
            | some value => (ofUtf8? rest).map (value :: ·)
            | none =>
              match rest with
              | [] => none
              | d :: rest =>
                (utf8Quadruple? a b c d).bind fun value => (ofUtf8? rest).map (value :: ·)

/-- The text in Latin-1: each byte is a code point. -/
def ofLatin1 (bytes : List UInt8) : Text := bytes.map UInt8.toNat

def ofBytes (bytes : List UInt8) : Text := (ofUtf8? bytes).getD (ofLatin1 bytes)

end JavaSource.Text

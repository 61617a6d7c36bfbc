import JavaSource.Text.Basic

/-!
# Double precision numbers

A double precision number is kept as its bits. Its exact value is `± m * 2 ^ q`, and it is written with
the fewest digits that read back as the same number.
-/

namespace JavaSource

/-- A finite double precision number, given by its bits. -/
structure Double where
  bits : UInt64
  deriving DecidableEq, Repr

namespace Double

def isNegative (x : Double) : Bool := x.bits >>> 63 == 1

def biased (x : Double) : Nat := (x.bits >>> 52).toNat % 2048

def fractionBits (x : Double) : Nat := x.bits.toNat % Nat.pow 2 52

/-- The integer `m` of the magnitude `m * 2 ^ q`. -/
def mantissa (x : Double) : Nat :=
  if x.biased = 0 then x.fractionBits else x.fractionBits + Nat.pow 2 52

/-- The exponent `q` of the magnitude `m * 2 ^ q`. -/
def exponent (x : Double) : Int := (max x.biased 1 : Nat) - 1075

structure Fraction where
  num : Nat
  den : Nat

def scaled (m : Nat) (q : Int) : Fraction :=
  if 0 ≤ q then ⟨m * Nat.pow 2 q.toNat, 1⟩ else ⟨m, Nat.pow 2 (-q).toNat⟩

def equalsInt (x : Double) (n : Int) : Bool :=
  let magnitude := scaled x.mantissa x.exponent
  let num : Int := if x.isNegative then - (magnitude.num : Int) else magnitude.num
  num == n * magnitude.den

/-- Whether two numbers have the same value; both zeros do. -/
def sameValue (x y : Double) : Bool :=
  x == y || (x.mantissa == 0 && y.mantissa == 0)

/-- The decimal `digits * 10 ^ power`. -/
structure Decimal where
  digits : Nat
  power : Int

def Decimal.fraction (d : Decimal) : Fraction :=
  if 0 ≤ d.power then ⟨d.digits * Nat.pow 10 d.power.toNat, 1⟩
  else ⟨d.digits, Nat.pow 10 (-d.power).toNat⟩

def Fraction.le (a b : Fraction) : Bool := a.num * b.den ≤ b.num * a.den

def Fraction.lt (a b : Fraction) : Bool := a.num * b.den < b.num * a.den

/-- Twice the distance of two fractions from each other, over the product of their denominators. -/
def Fraction.distance (a b : Fraction) : Fraction :=
  ⟨(a.num * b.den - b.num * a.den) + (b.num * a.den - a.num * b.den), a.den * b.den⟩

/-- The ends of the interval of reals that round to the magnitude of a number. -/
def interval (x : Double) : Fraction × Fraction :=
  let m := x.mantissa
  let q := x.exponent
  let low :=
    if m = Nat.pow 2 52 ∧ 1 < x.biased then scaled (4 * m - 1) (q - 2) else scaled (2 * m - 1) (q - 1)
  (low, scaled (2 * m + 1) (q - 1))

/-- Whether a decimal rounds to the magnitude of a number. The ends of the interval do if the mantissa is
even. -/
def roundsTo (x : Double) (d : Decimal) : Bool :=
  let (low, high) := x.interval
  let v := d.fraction
  if x.mantissa % 2 = 0 then low.le v && v.le high else low.lt v && v.lt high

/-- The neighbours of the magnitude on the grid of multiples of `10 ^ power` that round to it, the nearer
one first. -/
def onGrid (x : Double) (power : Int) : Option Decimal :=
  let v := scaled x.mantissa x.exponent
  let below :=
    if 0 ≤ power then v.num / (v.den * Nat.pow 10 power.toNat)
    else v.num * Nat.pow 10 (-power).toNat / v.den
  let low : Decimal := ⟨below, power⟩
  let high : Decimal := ⟨below + 1, power⟩
  match x.roundsTo low, x.roundsTo high with
  | true, true =>
    if (Fraction.distance v high.fraction).lt (Fraction.distance v low.fraction) then some high
    else some low
  | true, false => some low
  | false, true => some high
  | false, false => none

/-- The number of decimal digits of the integer part of a positive fraction, less one, or the negative
place of its first digit. -/
def leadingPower (v : Fraction) : Int :=
  let digits (n : Nat) : Nat := (Nat.toDigits 10 n).length
  if v.den ≤ v.num then (digits (v.num / v.den) : Int) - 1
  else
    let guess := (digits v.den : Int) - digits v.num
    if v.den ≤ v.num * Nat.pow 10 guess.toNat then - guess else - guess - 1

/-- The shortest decimal that rounds to a positive magnitude: the coarsest grid with a hit wins. -/
def shortest (x : Double) : Decimal :=
  let top := leadingPower (scaled x.mantissa x.exponent)
  let grids := (List.range 19).map fun (i : Nat) => top + 1 - i
  (grids.findSome? x.onGrid).getD ⟨0, 0⟩

/-- The digits of a number without trailing zeros, and the power of ten of the last of them. -/
def trimZeros (digits : Nat) (power : Int) : Nat → Nat × Int
  | 0 => (digits, power)
  | fuel + 1 =>
    if digits ≠ 0 ∧ digits % 10 = 0 then trimZeros (digits / 10) (power + 1) fuel else (digits, power)

/-- The text of a positive decimal: positional if the first digit stands at most sixteen places before
the point and at most four after it, and with an exponent of at least two digits otherwise. -/
def Decimal.text (d : Decimal) : Text :=
  let (n, power) := trimZeros d.digits d.power 400
  let digits := Text.ofNat n
  let point : Int := digits.length + power
  if -4 < point && point ≤ 16 then
    if point ≤ 0 then Text.ofString "0." ++ Text.copies (-point).toNat '0' ++ digits
    else if point < digits.length then
      digits.take point.toNat ++ Text.ofString "." ++ digits.drop point.toNat
    else digits ++ Text.copies (point.toNat - digits.length) '0' ++ Text.ofString ".0"
  else
    let exponent := point - 1
    let sign : Text := if exponent < 0 then "-" else "+"
    let fraction := if digits.length = 1 then [] else Text.ofString "." ++ digits.drop 1
    digits.take 1 ++ fraction ++ Text.ofString "e" ++ sign ++ Text.ofNatTwoDigits exponent.natAbs

def text (x : Double) : Text :=
  let magnitude := if x.mantissa = 0 then Text.ofString "0.0" else x.shortest.text
  if x.isNegative then Text.ofString "-" ++ magnitude else magnitude

end Double

end JavaSource

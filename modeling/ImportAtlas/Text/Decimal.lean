/-!
The shortest decimals of binary floating-point numbers.

A number of 64 bits stands for all the reals that round to it. Its decimal is the one with the
fewest digits among them, the nearest if there are several, found by trying one digit after
another in exact arithmetic.
-/

namespace ImportAtlas.Text

/-- A positive number `significand * 2 ^ exponent`. -/
structure Binary where
  significand : Nat
  exponent : Int
  /-- the number below is half as far away as the number above -/
  narrowBelow : Bool
  deriving DecidableEq, Repr

/-- The number `digits * 10 ^ exponent`. -/
structure Decimal where
  digits : Nat
  exponent : Int
  deriving DecidableEq, Repr

namespace Binary

/-- The absolute value of a finite number, from its bits. -/
def ofBits (bits : UInt64) : Binary :=
  let e := (bits >>> 52 &&& 0x7ff).toNat
  let f := (bits &&& 0xfffffffffffff).toNat
  if e = 0 then ⟨f, -1074, false⟩ else ⟨0x10000000000000 + f, e - 1075, f == 0 && e > 1⟩

def power (base : Nat) (e : Int) : Nat := Nat.pow base e.toNat

/-- How a decimal compares with `n * 2 ^ e`. -/
def compareScaled (d : Decimal) (n : Nat) (e : Int) : Ordering :=
  compare (d.digits * power 10 d.exponent * power 2 (-e)) (n * power 2 e * power 10 (-d.exponent))

/-- The decimal rounds to the number, halves going to the even neighbour. -/
def readsBack (b : Binary) (d : Decimal) : Bool :=
  -- a decimal half way between two numbers stands for the even one
  let isEven := b.significand % 2 == 0
  let low := compareScaled d (4 * b.significand - if b.narrowBelow then 1 else 2) (b.exponent - 2)
  let high := compareScaled d (4 * b.significand + 2) (b.exponent - 2)
  (low == .gt || (isEven && low == .eq)) && (high == .lt || (isEven && high == .eq))

/-- The number, scaled down by a power of ten and rounded down. -/
def floorAt (b : Binary) (e : Int) : Nat :=
  b.significand * power 2 b.exponent * power 10 (-e) / (power 2 (-b.exponent) * power 10 e)

def leading (b : Binary) : Int :=
  ((List.range 640).find? fun k : Nat => b.floorAt (309 - k) != 0).elim 0 fun k => 309 - k

/-- The neighbour of the number on the grid of a power of ten that rounds to it, the nearer of the
two. -/
def onGrid? (b : Binary) (e : Int) : Option Decimal :=
  let below : Decimal := ⟨b.floorAt e, e⟩
  let above : Decimal := ⟨b.floorAt e + 1, e⟩
  let middle := compareScaled ⟨2 * below.digits + 1, e⟩ (2 * b.significand) b.exponent
  let isNearBelow := middle == .gt || (middle == .eq && below.digits % 2 == 0)
  if b.readsBack below && (isNearBelow || !b.readsBack above) then some below
  else if b.readsBack above then some above
  else none

def exact (b : Binary) : Decimal :=
  ⟨b.significand * power 2 b.exponent * power 5 (-b.exponent), min b.exponent 0⟩

/-- The decimal with the fewest digits that rounds to the number. -/
def shortest (b : Binary) : Decimal :=
  ((List.range 17).findSome? fun n : Nat => b.onGrid? (b.leading - n)).getD b.exact

end Binary

namespace Decimal

def digitChars (d : Decimal) : List Char := Nat.toDigits 10 d.digits

def leading (d : Decimal) : Int := d.exponent + (d.digitChars.length - 1 : Int)

def significantChars (d : Decimal) : List Char :=
  (d.digitChars.reverse.dropWhile (· = '0')).reverse

/-- The text of a positive decimal: with a point as long as the first digit stands for no more than
`10 ^ 15` and no less than `10 ^ -5`, with an exponent otherwise. -/
def text (d : Decimal) : List Char :=
  let digits := d.significantChars
  let e := d.leading
  if e < -5 || e > 15 then
    let fraction := if digits.length = 1 then [] else '.' :: digits.drop 1
    let sign := if e < 0 then '-' else '+'
    digits.take 1 ++ fraction ++ ['e', sign] ++ Nat.toDigits 10 e.natAbs
  else if e < 0 then "0.".toList ++ List.replicate (e.natAbs - 1) '0' ++ digits
  else
    let whole := digits.take (e.toNat + 1)
    let fraction := digits.drop (e.toNat + 1)
    whole ++ List.replicate (e.toNat + 1 - whole.length) '0' ++ '.' ::
      (if fraction.isEmpty then ['0'] else fraction)

end Decimal

def floatText (f : Float) : String :=
  let sign := if f.toBits >>> 63 = 1 then ['-'] else []
  let b := Binary.ofBits f.toBits
  String.ofList (sign ++ if b.significand = 0 then "0.0".toList else b.shortest.text)

end ImportAtlas.Text
